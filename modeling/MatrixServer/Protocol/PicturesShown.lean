import MatrixServer.Foundation.PictureBoard
import MatrixServer.Protocol.AnnouncedScreens
import MatrixServer.Protocol.Introductions

/-!
The whole system as a board for pictures.
An application posts a picture when it renders its screens; the server takes it when it handles
the frame, and puts it up when the application is on top. Every run of the server and its
applications is a run of that board: the frames on their way are the queues, and each renderer
that stores pixels shows the picture on view.
-/

namespace MatrixServer
open TransitionRuns KeyedWrites PictureBoard

/-- What an application renders: its screens, and the brightness if it has set one. -/
structure Picture where
  screens : List Screen
  brightness : Option Int

def MatrixApplication.picture (a : MatrixApplication) : Picture where
  screens := a.screens
  brightness := if a.updateBrightness then some a.serverConfig.globalScreenBrightness else none

/-- What a step of the system means to the board. -/
def System.boardActions (st : System) : SystemEvent → List (Action ConnectionId Picture)
  | .main i (.returned _ screens brightness) _ =>
      if (st.clients i).mainThread = some .drawing then
        [.post i ((st.clients i).afterLoop screens brightness).picture]
      else []
  | .serve i _ _ =>
      match st.toServer i with
      | message :: _ =>
          if message.isFrame then [.take i (st.server.isTopApp message.appID)] else []
      | [] => []
  | _ => []

/-- The frame of a picture. -/
structure Picture.FrameIs (picture : Picture) (message : MatrixServerMessage) : Prop where
  screenData : message.screenData = picture.screens.map fun screen =>
    { screenID := screen.screenId, frameData := screen.frameData, encoding := .rgb24bbp }
  brightness : message.serverConfig.map ServerConfig.globalScreenBrightness = picture.brightness

theorem MatrixApplication.picture_frameIs (a : MatrixApplication) :
    a.picture.FrameIs a.renderToScreens.2 := by
  refine ⟨rfl, ?_⟩
  simp only [picture, renderToScreens]
  split <;> rfl

/-- The picture has one whole screen for each entry of the configuration. -/
structure Picture.Fits (serverConfig : ServerConfig) (picture : Picture) : Prop where
  layouts : picture.screens.map Screen.layout = serverConfig.screenInfo.map ScreenInfo.layout
  full : ∀ s ∈ picture.screens, s.Full

/-- Whether a renderer of this kind takes over a brightness. -/
def RendererKind.accepts (kind : RendererKind) (brightness : Int) : Bool :=
  match kind with
  | .fpgaFTDI | .fpgaRPISPI | .rgbMatrix => 0 ≤ brightness ∧ brightness ≤ 100
  | .webSocketSimulator _ => true

theorem Renderer.setGlobalBrightness_value (r : Renderer) (brightness : Int) :
    (r.setGlobalBrightness brightness).globalBrightness =
      if r.kind.accepts brightness then brightness else r.globalBrightness := by
  simp only [setGlobalBrightness]
  cases r.kind with
  | webSocketSimulator streamPixels => rfl
  | fpgaFTDI | fpgaRPISPI | rgbMatrix =>
      simp only [FPGARendererFTDI.setGlobalBrightness, FPGARendererRPISPI.setGlobalBrightness,
        RGBMatrixRenderer.setGlobalBrightness, setPercentBrightness, RendererKind.accepts,
        decide_eq_true_eq, ge_iff_le, and_comm]

/-- The last brightness in the pictures put up that a renderer of this kind accepts, or 100. -/
def lastBrightness (kind : RendererKind) (b : Board ConnectionId Picture) : Int :=
  ((b.shown.filterMap fun entry => entry.2.brightness).filter kind.accepts).getLast?.getD 100

theorem lastBrightness_putUp (kind : RendererKind) (b : Board ConnectionId Picture)
    (i : ConnectionId) (picture : Picture) (queued : ConnectionId → List Picture) :
    lastBrightness kind { queued, shown := b.shown ++ [(i, picture)] } =
      picture.brightness.elim (lastBrightness kind b) fun brightness =>
        if kind.accepts brightness then brightness else lastBrightness kind b := by
  simp only [lastBrightness, List.filterMap_append, List.filter_append]
  cases hbrightness : picture.brightness with
  | none => simp [hbrightness]
  | some brightness =>
      cases haccepts : kind.accepts brightness with
      | true => simp [hbrightness, haccepts]
      | false => simp [hbrightness, haccepts]

namespace Server

variable (serverConfig : ServerConfig) (connection : ConnectionId) (beyond : Nat → UInt8)

/-- The screens depend on the entries of a frame only. -/
theorem showFrame_screens_congr {message message' : MatrixServerMessage}
    (h : message.screenData = message'.screenData) (index : Nat) (r : Renderer) :
    (showFrame serverConfig connection message beyond index r).1.screens =
      (showFrame serverConfig connection message' beyond index r).1.screens := by
  apply List.ext_getElem?
  intro screenId
  rw [showFrame_screen, showFrame_screen, h]

theorem showFrame_globalBrightness (message : MatrixServerMessage) (index : Nat) (r : Renderer) :
    (showFrame serverConfig connection message beyond index r).1.globalBrightness =
      (message.serverConfig.map ServerConfig.globalScreenBrightness).elim r.globalBrightness
        fun brightness =>
          if r.kind.accepts brightness then brightness else r.globalBrightness := by
  obtain ⟨hkind, hbrightness⟩ := storeEntries_keeps serverConfig beyond (r, []) message.screenData
  simp only [showFrame]
  cases message.serverConfig with
  | none => exact hbrightness
  | some config =>
      simp only [Option.map_some, Option.elim_some]
      rw [Renderer.setGlobalBrightness_value, hkind, hbrightness]

end Server

/-- Screens of the same layouts that agree wherever their ids do. -/
theorem screenData_eq_of_layouts {screens clients : List Screen}
    (hlayouts : screens.map Screen.layout = clients.map Screen.layout)
    (hdata : ∀ screen ∈ screens, ∀ client ∈ clients, screen.screenId = client.screenId →
      screen.screenData = client.screenData) :
    screens.map Screen.screenData = clients.map Screen.screenData := by
  induction screens generalizing clients with
  | nil =>
      rw [List.map_eq_nil_iff.mp hlayouts.symm]
  | cons screen screens ih =>
      cases clients with
      | nil => cases hlayouts
      | cons client clients =>
          obtain ⟨hlayout, hrest⟩ := List.cons.inj hlayouts
          rw [List.map_cons, List.map_cons, hdata screen List.mem_cons_self client
            List.mem_cons_self (congrArg Prod.fst hlayout), ih hrest]
          intro other hother client' hclient'
          exact hdata other (List.mem_cons_of_mem _ hother) client'
            (List.mem_cons_of_mem _ hclient')

/-- What a storing renderer shows of a picture whose frame is shown. -/
theorem Picture.Fits.shown {serverConfig : ServerConfig} {kinds : List RendererKind} {s : Server}
    (hs : s.Displays serverConfig kinds)
    (hdistinct : (serverConfig.screenInfo.map ScreenInfo.screenID).Nodup)
    (hplaces : serverConfig.IdsArePlaces) {picture : Picture} (hfits : picture.Fits serverConfig)
    {message : MatrixServerMessage} (hframe : picture.FrameIs message)
    (htop : s.isTopApp message.appID = true) (connection : ConnectionId) (beyond : Nat → UInt8)
    {index : Nat} {r : Renderer} (hr : s.renderers[index]? = some r)
    (hstores : r.kind.storesPixels = true) :
    (Server.showFrame s.serverConfig connection message beyond index r).1.screens.map
      Screen.screenData = picture.screens.map Screen.screenData := by
  let a : MatrixApplication :=
    { appId := message.appID, serverConfig, screens := picture.screens }
  have ha : a.ScreensInv := ⟨hfits.full, hfits.layouts, hdistinct⟩
  have hshows := showsAnnounced_of_idsArePlaces connection 0 beyond hs ha rfl htop hplaces
  have hafter : (s.handleRequest connection a.renderToScreens.2 0 beyond).1.renderers[index]? =
      some (Server.showFrame s.serverConfig connection a.renderToScreens.2 beyond index r).1 := by
    rw [handleRequest_frame htop, hr, Option.map_some]
  have hmem := List.mem_of_getElem? hafter
  have hlayouts := (hs.call (.handleRequest connection a.renderToScreens.2 0 beyond)).layouts _ hmem
  have hsame : message.screenData = a.renderToScreens.2.screenData := hframe.screenData
  rw [Server.showFrame_screens_congr s.serverConfig connection beyond hsame]
  refine screenData_eq_of_layouts (hlayouts.trans hfits.layouts.symm) ?_
  exact hshows.2 _ hmem (by rwa [Server.showFrame_kind])

/-- How a state of the system and one of the board belong together. -/
structure System.Depicts (serverConfig : ServerConfig) (kinds : List RendererKind)
    (screens : List Screen) (st : System) (b : Board ConnectionId Picture) : Prop where
  displays : st.server.Displays serverConfig kinds
  introduced : st.Introduced serverConfig
  queues : ∀ i, List.Forall₂ Picture.FrameIs (b.queued i)
    ((st.toServer i).filter MatrixServerMessage.isFrame)
  fits : ∀ i, ∀ picture ∈ b.queued i, picture.Fits serverConfig
  pixels : ∀ r ∈ st.server.renderers, r.kind.storesPixels = true →
    r.screens.map Screen.screenData =
      (b.onView.elim screens Picture.screens).map Screen.screenData
  brightness : ∀ r ∈ st.server.renderers, r.globalBrightness = lastBrightness r.kind b

/-- A step of the main thread sends a picture's frame when its turn returns, else no frame. -/
theorem AppProcess.MainStep.frames {p p' : AppProcess} {outcome : LoopOutcome}
    {sent : List MatrixServerMessage} (hlive : p.connection.dead = false)
    (h : MainStep p outcome p' sent) :
    (p.mainThread = some .drawing ∧ ∃ running screens brightness,
      outcome = .returned running screens brightness ∧
        sent = [(p.afterLoop screens brightness).renderToScreens.2]) ∨
    (p.mainThread = some .drawing → outcome.returns = false) ∧
      sent.filter MatrixServerMessage.isFrame = [] := by
  cases h with
  | enter hpos | skip hpos | pass hpos | checkKilled _ hpos =>
      exact .inr ⟨fun hdraws => (by cases hpos.symm.trans hdraws), rfl⟩
  | checkConnection running connects hpos =>
      rw [checkConnection_live hlive]
      exact .inr ⟨fun hdraws => (by cases hpos.symm.trans hdraws), rfl⟩
  | draw hpos =>
      cases outcome with
      | returned running screens brightness => exact .inl ⟨hpos, _, _, _, rfl, rfl⟩
      | loopThrew | renderThrew => exact .inr ⟨fun _ => rfl, rfl⟩

namespace System

section
variable {serverConfig : ServerConfig} {kinds : List RendererKind} {screens : List Screen}
  {st : System} {b : Board ConnectionId Picture}

/-- A client's step that posts the pictures whose frames it sends. -/
theorem Depicts.clientStep (h : st.Depicts serverConfig kinds screens b) {i : ConnectionId}
    {process : AppProcess} {sent : List MatrixServerMessage}
    {toClient : ConnectionId → List MatrixServerMessage} {posted : List Picture}
    (hintroduced : Introduced serverConfig { st.clientStep i process sent with toClient })
    (hframes : List.Forall₂ Picture.FrameIs posted (sent.filter MatrixServerMessage.isFrame))
    (hfits : ∀ picture ∈ posted, picture.Fits serverConfig) :
    Depicts serverConfig kinds screens { st.clientStep i process sent with toClient }
      { b with queued := Function.update b.queued i (b.queued i ++ posted) } := by
  refine ⟨h.displays, hintroduced, fun j => ?_, fun j => ?_, h.pixels, h.brightness⟩
  · by_cases hj : j = i
    · subst hj
      simp only [System.clientStep, Function.update_self, List.filter_append]
      exact List.rel_append (h.queues j) hframes
    · simpa only [System.clientStep, Function.update_of_ne hj] using h.queues j
  · intro picture hpicture
    by_cases hj : j = i
    · subst hj
      simp only [Function.update_self] at hpicture
      exact (List.mem_append.mp hpicture).elim (h.fits j picture) (hfits picture)
    · simp only [Function.update_of_ne hj] at hpicture
      exact h.fits j picture hpicture

/-- A client's step that sends no frame. -/
theorem Depicts.quietClient (h : st.Depicts serverConfig kinds screens b) {i : ConnectionId}
    {process : AppProcess} {sent : List MatrixServerMessage}
    {toClient : ConnectionId → List MatrixServerMessage}
    (hintroduced : Introduced serverConfig { st.clientStep i process sent with toClient })
    (hframes : sent.filter MatrixServerMessage.isFrame = []) :
    Depicts serverConfig kinds screens { st.clientStep i process sent with toClient } b := by
  have hposted : List.Forall₂ Picture.FrameIs [] (sent.filter MatrixServerMessage.isFrame) := by
    rw [hframes]
    exact .nil
  have hstep := h.clientStep hintroduced hposted fun _ hmem => False.elim (List.not_mem_nil hmem)
  rwa [List.append_nil, Function.update_eq_self] at hstep

/-- A call of the server that shows no frame. -/
theorem Depicts.quietCall (h : st.Depicts serverConfig kinds screens b) (c : ServerCall)
    {toServer : ConnectionId → List MatrixServerMessage} {queued : ConnectionId → List Picture}
    (hintroduced : Introduced serverConfig (({ st with toServer } : System).call c))
    (hshows : ∀ message, ¬st.server.ShowsFrame c message)
    (hqueues : ∀ i, List.Forall₂ Picture.FrameIs (queued i)
      ((toServer i).filter MatrixServerMessage.isFrame))
    (hfits : ∀ i, ∀ picture ∈ queued i, picture.Fits serverConfig) :
    Depicts serverConfig kinds screens (({ st with toServer } : System).call c)
      { b with queued } := by
  have hsame : (st.server.call c).1.renderers = st.server.renderers :=
    Server.call_renderers hshows
  refine ⟨h.displays.call c, hintroduced, hqueues, hfits, fun r hr => ?_, fun r hr => ?_⟩
  · exact h.pixels r (hsame ▸ hr)
  · exact h.brightness r (hsame ▸ hr)

/-- A call of the server that shows the frame of a picture. -/
theorem Depicts.shownCall (h : st.Depicts serverConfig kinds screens b)
    (hdistinct : (serverConfig.screenInfo.map ScreenInfo.screenID).Nodup)
    (hplaces : serverConfig.IdsArePlaces) {i : ConnectionId} {message : MatrixServerMessage}
    {picture : Picture} {rand : Nat} {beyond : Nat → UInt8}
    (hframe : message.messageType = .setScreenFrame)
    (htop : st.server.isTopApp message.appID = true) (hpicture : picture.FrameIs message)
    (hfit : picture.Fits serverConfig)
    {toServer : ConnectionId → List MatrixServerMessage} {queued : ConnectionId → List Picture}
    (hintroduced : Introduced serverConfig
      (({ st with toServer } : System).call (.handleRequest i message rand beyond)))
    (hqueues : ∀ j, List.Forall₂ Picture.FrameIs (queued j)
      ((toServer j).filter MatrixServerMessage.isFrame))
    (hfits : ∀ j, ∀ picture ∈ queued j, picture.Fits serverConfig) :
    Depicts serverConfig kinds screens
      (({ st with toServer } : System).call (.handleRequest i message rand beyond))
      { queued, shown := b.shown ++ [(i, picture)] } := by
  have hafter : ∀ r' ∈ (st.server.call (.handleRequest i message rand beyond)).1.renderers,
      ∃ index r, st.server.renderers[index]? = some r ∧ r' =
        (Server.showFrame st.server.serverConfig i message beyond index r).1 := by
    intro r' hr'
    obtain ⟨index, hget⟩ := List.mem_iff_getElem?.mp hr'
    rw [Server.call_showsFrame i message beyond rand hframe htop] at hget
    obtain ⟨r, hr, rfl⟩ := Option.map_eq_some_iff.mp hget
    exact ⟨index, r, hr, rfl⟩
  refine ⟨h.displays.call _, hintroduced, hqueues, hfits, fun r' hr' hstores => ?_,
    fun r' hr' => ?_⟩
  · obtain ⟨index, r, hr, rfl⟩ := hafter r' hr'
    rw [Server.showFrame_kind] at hstores
    rw [hfit.shown h.displays hdistinct hplaces hpicture htop i beyond hr hstores]
    simp [Board.onView]
  · obtain ⟨index, r, hr, rfl⟩ := hafter r' hr'
    rw [Server.showFrame_globalBrightness, Server.showFrame_kind, lastBrightness_putUp,
      hpicture.brightness, h.brightness r (List.mem_of_getElem? hr)]

theorem Depicts.mainStep (h : st.Depicts serverConfig kinds screens b) {i : ConnectionId}
    {outcome : LoopOutcome} {connects : Bool} {process : AppProcess}
    {sent : List MatrixServerMessage} (hdraws : st.DrawsOnScreens (.main i outcome connects))
    (hmain : AppProcess.MainStep (st.clients i) outcome process sent)
    (hintroduced : (st.clientStep i process sent).Introduced serverConfig) :
    ∃ b', (boardRuns ConnectionId Picture).replay b (st.boardActions (.main i outcome connects)) =
      some b' ∧ (st.clientStep i process sent).Depicts serverConfig kinds screens b' := by
  obtain ⟨hdrawing, running, drawn, brightness, rfl, rfl⟩ | ⟨hthrows, hframes⟩ :=
    hmain.frames (h.introduced i).live
  · have hactions : st.boardActions (.main i (.returned running drawn brightness) connects) =
        [.post i ((st.clients i).afterLoop drawn brightness).picture] := if_pos hdrawing
    have hscreens : ((st.clients i).afterLoop drawn brightness).picture.screens = drawn := by
      cases brightness <;> rfl
    obtain ⟨hlayouts, hfull⟩ := hdraws hdrawing
    rw [hactions, TransitionSystem.replay_singleton]
    refine ⟨_, rfl, h.clientStep hintroduced ?_ ?_⟩
    · exact .cons (MatrixApplication.picture_frameIs _) .nil
    · intro picture hmem
      rw [List.mem_singleton.mp hmem]
      refine ⟨?_, ?_⟩
      · rw [hscreens]
        exact hlayouts.trans ((h.introduced i).told hdrawing).layouts
      · rw [hscreens]
        exact hfull
  · have hactions : st.boardActions (.main i outcome connects) = [] := by
      cases outcome with
      | returned running drawn brightness => exact if_neg fun hdrawing => nomatch hthrows hdrawing
      | loopThrew | renderThrew => rfl
    rw [hactions]
    exact ⟨b, rfl, h.quietClient hintroduced hframes⟩

theorem Depicts.serveStep (h : st.Depicts serverConfig kinds screens b)
    (hdistinct : (serverConfig.screenInfo.map ScreenInfo.screenID).Nodup)
    (hplaces : serverConfig.IdsArePlaces) {i : ConnectionId} {message : MatrixServerMessage}
    {rest : List MatrixServerMessage} {rand : Nat} {beyond : Nat → UInt8}
    (hchannel : st.toServer i = message :: rest)
    (hintroduced : Introduced serverConfig
      (({ st with toServer := Function.update st.toServer i rest } : System).call
        (.handleRequest i message rand beyond))) :
    ∃ b', (boardRuns ConnectionId Picture).replay b (st.boardActions (.serve i rand beyond)) =
      some b' ∧ Depicts serverConfig kinds screens
        (({ st with toServer := Function.update st.toServer i rest } : System).call
          (.handleRequest i message rand beyond)) b' := by
  have hqueue := h.queues i
  rw [hchannel] at hqueue
  have hactions : st.boardActions (.serve i rand beyond) =
      if message.isFrame then [.take i (st.server.isTopApp message.appID)] else [] := by
    simp only [boardActions, hchannel]
  cases hframe : message.isFrame with
  | false =>
      rw [List.filter_cons_of_neg (by simp [hframe])] at hqueue
      rw [hactions, if_neg (by simp [hframe])]
      refine ⟨b, rfl, h.quietCall _ hintroduced ?_ (fun j => ?_) h.fits⟩
      · intro other hshows
        obtain ⟨_, _, _, hcall, htype, -⟩ := hshows
        cases hcall
        simp [MatrixServerMessage.isFrame, htype] at hframe
      · by_cases hj : j = i
        · subst hj
          rwa [Function.update_self]
        · rw [Function.update_of_ne hj]
          exact h.queues j
  | true =>
      have htype := of_decide_eq_true hframe
      rw [List.filter_cons_of_pos hframe] at hqueue
      obtain ⟨picture, queue, hpicture, hrest, hqueued⟩ :=
        List.forall₂_cons_right_iff.mp hqueue
      have hqueues : ∀ j, List.Forall₂ Picture.FrameIs (Function.update b.queued i queue j)
          ((Function.update st.toServer i rest j).filter MatrixServerMessage.isFrame) := by
        intro j
        by_cases hj : j = i
        · subst hj
          rwa [Function.update_self, Function.update_self]
        · rw [Function.update_of_ne hj, Function.update_of_ne hj]
          exact h.queues j
      have hfits : ∀ j, ∀ other ∈ Function.update b.queued i queue j,
          other.Fits serverConfig := by
        intro j other hother
        by_cases hj : j = i
        · subst hj
          rw [Function.update_self] at hother
          exact h.fits j other (hqueued ▸ List.mem_cons_of_mem _ hother)
        · rw [Function.update_of_ne hj] at hother
          exact h.fits j other hother
      have hstep : (boardRuns ConnectionId Picture).replay b
          (st.boardActions (.serve i rand beyond)) =
          some
            { queued := Function.update b.queued i queue
              shown := if st.server.isTopApp message.appID then b.shown ++ [(i, picture)]
                else b.shown } := by
        rw [hactions, if_pos hframe, TransitionSystem.replay_singleton]
        simp only [boardRuns, Board.step, hqueued]
      refine ⟨_, hstep, ?_⟩
      cases htop : st.server.isTopApp message.appID with
      | true =>
          rw [if_pos rfl]
          exact h.shownCall hdistinct hplaces htype htop hpicture
            (h.fits i picture (hqueued ▸ List.mem_cons_self)) hintroduced hqueues hfits
      | false =>
          rw [if_neg Bool.false_ne_true]
          refine h.quietCall _ hintroduced ?_ hqueues hfits
          intro other hshows
          obtain ⟨_, _, _, hcall, -, hother⟩ := hshows
          cases hcall
          rw [htop] at hother
          cases hother

/-- Every step of the system is, on the board, what it means. -/
theorem Depicts.step (h : st.Depicts serverConfig kinds screens b)
    (hdistinct : (serverConfig.screenInfo.map ScreenInfo.screenID).Nodup)
    (hplaces : serverConfig.IdsArePlaces)
    (hnonneg : ∀ info ∈ serverConfig.screenInfo, 0 ≤ info.pixels) {st' : System} {e : SystemEvent}
    (hdraws : st.DrawsOnScreens e) (hstep : st.step e = some st') :
    ∃ b', (boardRuns ConnectionId Picture).replay b (st.boardActions e) = some b' ∧
      st'.Depicts serverConfig kinds screens b' := by
  have hintroduced := h.introduced.step h.displays.config hnonneg hdraws hstep
  cases step_cases hstep with
  | start i hmain hfresh => exact ⟨b, rfl, h.quietClient hintroduced rfl⟩
  | main i outcome connects hmain => exact h.mainStep hdraws hmain hintroduced
  | receive i hchannel hidle hhandles =>
      refine ⟨b, rfl, h.quietClient hintroduced ?_⟩
      rw [List.filter_eq_nil_iff]
      intro sent hsent hframe
      exact (hhandles.sent hsent).1 (of_decide_eq_true hframe)
  | join i hjoining hmain => exact ⟨b, rfl, h.quietClient hintroduced rfl⟩
  | serve i rand beyond hchannel => exact h.serveStep hdistinct hplaces hchannel hintroduced
  | @call e c hactor hrequester =>
      have hactions : st.boardActions e = [] := by
        cases e with
        | accept _ | clientMessage _ _ | tick _ => rfl
        | _ => cases hactor
      rw [hactions]
      refine ⟨b, rfl, h.quietCall c hintroduced ?_ h.queues h.fits⟩
      intro message hshows
      obtain ⟨_, _, _, rfl, -⟩ := hshows
      cases hrequester

end
end System

theorem screenInfo_nonneg {serverConfig : ServerConfig} {screens : List Screen}
    (hscreens : createScreensFromConfig serverConfig = some screens) :
    ∀ info ∈ serverConfig.screenInfo, 0 ≤ info.pixels := by
  intro info hinfo
  obtain ⟨hlayouts, hfull⟩ := createScreensFromConfig_layouts hscreens
  obtain ⟨place, hget⟩ := List.mem_iff_getElem?.mp hinfo
  obtain ⟨screen, hscreen, hlayout⟩ := exists_at_of_map_eq hlayouts.symm hget
  have hscreenFull := hfull screen (List.mem_of_getElem? hscreen)
  rw [← hscreenFull.size_of_layout hlayout.symm, hscreenFull.size]
  exact hscreenFull.nonneg

/-- The server with the screens of its configuration, and the applications. -/
def displayRuns (serverConfig : ServerConfig) (kinds : List RendererKind) (screens : List Screen)
    (params : ConnectionId → AnimationParams) (appNames : ConnectionId → String) :
    TransitionSystem System SystemEvent :=
  systemRuns serverConfig (initialServer serverConfig kinds screens).renderers params appNames

section
variable {serverConfig : ServerConfig} {kinds : List RendererKind} {screens : List Screen}
  {params : ConnectionId → AnimationParams} {appNames : ConnectionId → String} {st : System}
  {actions : List (Action ConnectionId Picture)}

theorem exists_depicted (hscreens : createScreensFromConfig serverConfig = some screens)
    (hdistinct : (serverConfig.screenInfo.map ScreenInfo.screenID).Nodup)
    (hplaces : serverConfig.IdsArePlaces)
    (h : (displayRuns serverConfig kinds screens params appNames).Means System.DrawsOnScreens
      System.boardActions st actions) :
    ∃ b, (boardRuns ConnectionId Picture).replay .empty actions = some b ∧
      st.Depicts serverConfig kinds screens b := by
  refine h.refines (System.Depicts serverConfig kinds screens) ?_ ?_
  · refine ⟨initialServer_displays kinds hscreens, System.introduced_initial _ _ _ _,
      fun _ => .nil, fun _ _ hmem => False.elim (List.not_mem_nil hmem), ?_, ?_⟩
    · intro r hr _
      obtain ⟨kind, -, rfl⟩ := List.mem_map.mp hr
      rfl
    · intro r hr
      obtain ⟨kind, -, rfl⟩ := List.mem_map.mp hr
      rfl
  · intro st e st' b hdepicts hdraws hstep
    exact hdepicts.step hdistinct hplaces (screenInfo_nonneg hscreens) hdraws hstep

end
end MatrixServer
