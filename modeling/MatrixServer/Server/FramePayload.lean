import MatrixServer.Server.ServerCalls

/-!
Which bytes a frame of the top app makes the renderers read.
Every renderer keeps the kind and the screen sizes it was built with, so what is
read for an entry is fixed by the configuration: the pixels of the screen the
entry names. Nothing compares that with the data the entry carries, so all reads
lie inside the entries exactly when every entry brings a whole screen.
-/

namespace MatrixServer
open TransitionRuns

/-- The server that `main` builds: all renderers get the screens of the configuration. -/
def initialServer (serverConfig : ServerConfig) (kinds : List RendererKind)
    (screens : List Screen) : Server :=
  .start serverConfig (kinds.map fun kind => { kind, screens })

/-- Each colour the effect reads lies inside the data it starts at. -/
def Effect.ReadsInside : Effect → Prop
  | .copyColors frameData count =>
      ∀ index < count, Color.size * index + Color.size ≤ frameData.length
  | _ => True

/-- The entry names no configured screen, or its data fills the screen it names. -/
def ScreenData.Fills (entry : ScreenData) (serverConfig : ServerConfig) : Prop :=
  0 ≤ entry.screenID → ∀ info ∈ serverConfig.screenInfo[entry.screenID.toNat]?,
    Color.size * info.pixels ≤ entry.frameData.length

/-- No renderer stores pixels, or all entries fill their screens. -/
def PayloadFits (serverConfig : ServerConfig) (kinds : List RendererKind)
    (message : MatrixServerMessage) : Prop :=
  ∀ kind ∈ kinds, kind.storesPixels = true →
    ∀ entry ∈ message.screenData, entry.Fills serverConfig

theorem readsInside_copyColors (frameData : Bytes) (count : Nat) :
    (Effect.copyColors frameData count).ReadsInside ↔ Color.size * count ≤ frameData.length := by
  simp only [Effect.ReadsInside, Color.size]
  constructor
  · intro h
    cases count with
    | zero => omega
    | succ count =>
        have := h count (Nat.lt_succ_self count)
        omega
  · intro h index hindex
    omega

/-- What stays as a server is built: the configuration, and renderer by renderer the
kind and the screen sizes. -/
structure Server.BuiltFrom (serverConfig : ServerConfig) (kinds : List RendererKind)
    (s : Server) : Prop where
  config : s.serverConfig = serverConfig
  shapes : s.renderers.map Renderer.shape =
    kinds.map fun kind => (kind, serverConfig.screenInfo.map ScreenInfo.pixels)

theorem initialServer_builtFrom {serverConfig : ServerConfig} (kinds : List RendererKind)
    {screens : List Screen} (h : createScreensFromConfig serverConfig = some screens) :
    (initialServer serverConfig kinds screens).BuiltFrom serverConfig kinds := by
  refine ⟨rfl, ?_⟩
  simp only [initialServer, Server.start, List.map_map, ← createScreensFromConfig_sizes h]
  rfl

namespace Server

variable {serverConfig : ServerConfig} {kinds : List RendererKind} {s : Server}

theorem BuiltFrom.call (h : s.BuiltFrom serverConfig kinds) (c : ServerCall) :
    (s.call c).1.BuiltFrom serverConfig kinds :=
  ⟨(s.call_shapes c).1.trans h.config, (s.call_shapes c).2.trans h.shapes⟩

theorem BuiltFrom.mem_shape (h : s.BuiltFrom serverConfig kinds)
    (shape : RendererKind × List Int) :
    (∃ r ∈ s.renderers, r.shape = shape) ↔
      ∃ kind ∈ kinds, (kind, serverConfig.screenInfo.map ScreenInfo.pixels) = shape := by
  rw [← List.mem_map, h.shapes, List.mem_map]

/-- The reads of one entry on one renderer lie inside its data when it fills its screen. -/
theorem entryCopy_readsInside {kind : RendererKind} {r : Renderer}
    (hshape : (kind, serverConfig.screenInfo.map ScreenInfo.pixels) = r.shape)
    (entry : ScreenData) :
    (∀ e ∈ entryCopy serverConfig r entry, e.ReadsInside) ↔
      (kind.storesPixels = true → entry.Fills serverConfig) := by
  simp only [entryCopy, ScreenData.Fills]
  split
  · rename_i hid
    have hout : 0 ≤ entry.screenID → serverConfig.screenInfo[entry.screenID.toNat]? = none := by
      intro hnonneg
      rw [List.getElem?_eq_none_iff]
      omega
    simp +contextual [hout]
  · rename_i hid
    have hlt : entry.screenID.toNat < serverConfig.screenInfo.length := by omega
    simp only [Option.mem_def, Option.some.injEq, forall_eq', readsInside_copyColors,
      Renderer.readCount, ← hshape, List.getElem?_map, List.getElem?_eq_getElem hlt,
      Option.map_some, Option.getD_some, Color.size]
    cases kind.storesPixels with
    | false => simp
    | true =>
        simp only [if_true, forall_const]
        constructor
        · intro hcopy _
          omega
        · intro hfills
          have := hfills (by omega)
          omega

end Server

/-- A frame of the top app makes the renderers read inside its entries' data if and only
if all entries fill the screens they name or no renderer stores pixels. -/
theorem frame_reads_inside_iff_payloadFits (serverConfig : ServerConfig)
    (_hsizes : serverConfig.IntSizes) (kinds : List RendererKind) (screens : List Screen)
    (hscreens : createScreensFromConfig serverConfig = some screens) (st : Server × Trace)
    (h : (serverRuns (initialServer serverConfig kinds screens)).Reachable st)
    (connection : ConnectionId) (message : MatrixServerMessage) (rand : Nat)
    (beyond : Nat → UInt8) (htype : message.messageType = .setScreenFrame)
    (htop : st.1.isTopApp message.appID = true) :
    (∀ e ∈ (st.1.handleRequest connection message rand beyond).2, e.ReadsInside) ↔
      PayloadFits serverConfig kinds message := by
  have hbuilt : st.1.BuiltFrom serverConfig kinds := by
    refine h.invariant (fun st => st.1.BuiltFrom serverConfig kinds)
      (initialServer_builtFrom kinds hscreens) ?_
    intro st c st' hbuilt _ hstep
    cases hstep
    exact hbuilt.call c
  simp only [Server.handleRequest, htype,
    Server.mem_setScreenFrame_effects connection message beyond htop, hbuilt.config]
  constructor
  · intro hreads kind hkind hstores entry hentry
    obtain ⟨r, hr, hshape⟩ := (hbuilt.mem_shape _).mpr ⟨kind, hkind, rfl⟩
    obtain ⟨index, hindex⟩ := List.mem_iff_getElem?.mp hr
    refine (Server.entryCopy_readsInside hshape.symm entry).mp (fun e he => ?_) hstores
    exact hreads e ⟨index, r, hindex, .inl (List.mem_filterMap.mpr ⟨entry, hentry, he⟩)⟩
  · rintro hfits e ⟨index, r, hindex, hcopy | rfl | rfl⟩
    · obtain ⟨entry, hentry, he⟩ := List.mem_filterMap.mp hcopy
      obtain ⟨kind, hkind, hshape⟩ :=
        (hbuilt.mem_shape r.shape).mp ⟨r, List.mem_of_getElem? hindex, rfl⟩
      refine (Server.entryCopy_readsInside hshape entry).mpr (fun hstores => ?_) e he
      exact hfits kind hkind hstores entry hentry
    · trivial
    · trivial

/-- One screen of one pixel, as `main` sets it up for the simulator. -/
def onePixelConfig : ServerConfig where
  screenInfo := [{ width := 1, height := 1 }]
  globalScreenBrightness := 100

def onePixelServer : Server :=
  initialServer onePixelConfig [.webSocketSimulator true]
    ((createScreensFromConfig onePixelConfig).getD [])

/-- A frame for the one screen. -/
def pixelFrame (appID : Int) (frameData : Bytes) : MatrixServerMessage where
  messageType := .setScreenFrame
  appID := appID
  screenData := [{ screenID := 0, frameData, encoding := .rgb24bbp }]

theorem frame_reads_one_pixel :
    ∃ st, (serverRuns onePixelServer).replay (onePixelServer, [])
        [.handleRequest 1 { messageType := .registerApp } 7 fun _ => 0] = some st ∧
      ∀ e ∈ (st.1.handleRequest 1 (pixelFrame 7 [10, 20, 30]) 0 fun _ => 0).2, e.ReadsInside := by
  refine ⟨_, rfl, ?_⟩
  refine (frame_reads_inside_iff_payloadFits onePixelConfig (by decide) [.webSocketSimulator true]
    ((createScreensFromConfig onePixelConfig).getD []) rfl _ (.step .initial trivial rfl) 1
    (pixelFrame 7 [10, 20, 30]) 0 (fun _ => 0) rfl rfl).mpr ?_
  intro kind _ _ entry hentry _ info hinfo
  cases List.mem_singleton.mp hentry
  cases hinfo
  decide

/-- A registered app sends a frame whose only entry is empty. -/
theorem frame_reads_behind_empty_entry :
    ¬ ∀ st, (serverRuns onePixelServer).Reachable st →
      ∀ connection message rand beyond, message.messageType = .setScreenFrame →
        st.1.isTopApp message.appID = true →
          ∀ e ∈ (st.1.handleRequest connection message rand beyond).2, e.ReadsInside := by
  intro hall
  have hreads := hall _
    (.of_replay [.handleRequest 1 { messageType := .registerApp } 7 fun _ => 0] rfl)
    1 (pixelFrame 7 []) 0 (fun _ => 0) rfl rfl (.copyColors [] 1) (by decide)
  exact absurd (hreads 0 (by decide)) (by decide)

end MatrixServer
