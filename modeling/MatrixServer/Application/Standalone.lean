import MatrixServer.Application.MatrixApplication
import MatrixServer.Foundation.TransitionRuns
import MatrixServer.Foundation.FlagHandoff
import MatrixServer.Server.ServerSetup

/-!
The application without a server, from application/MatrixApplicationStandalone.cpp.
Its main thread draws and raises `newFrame`; its render thread copies the screens to the renderer,
lowers the flag and renders. Accesses to the flag and the copy of one screen are one step each;
`renderSyncMutex` is taken by the render thread only. `stop`, the frame rate and the log are left
out.
-/

namespace MatrixServer
open TransitionRuns FlagHandoff PixelGrid

namespace MatrixApplicationStandalone

/-- `createDefaultCubeConfig`: the ids and orientations; each side is 64. -/
def createDefaultCubeConfig : List (Int × ScreenOrientation) :=
  [(0, .front), (1, .right), (2, .back), (3, .left), (4, .top), (5, .bottom)]

/-- The offsets and the rotation that the constructor gives a screen. -/
def mountOf : ScreenOrientation → Int × Int × Rotation
  | .front => (1, 1, .rot180)
  | .right => (0, 1, .rot180)
  | .back => (1, 0, .rot90)
  | .left => (2, 1, .rot180)
  | .top => (0, 0, .rot270)
  | .bottom => (2, 0, .rot270)
  | _ => (0, 0, .rot0)

/-- The screens that the constructor builds, once for drawing and once for rendering. -/
def createScreens : List Screen :=
  createDefaultCubeConfig.filterMap fun entry =>
    (Screen.new 64 64 entry.1).map fun screen =>
      { screen with
        offsetX := (mountOf entry.2).1
        offsetY := (mountOf entry.2).2.1
        rotation := (mountOf entry.2).2.2 }

inductive MainPosition where
  | loopTop | frameWait | drawing | finished
  deriving DecidableEq

inductive RenderPosition where
  | frameWait | copying (next : Nat) | rendering
  deriving DecidableEq

inductive Output where
  /-- `loop` has returned and left these screens. -/
  | looped (screens : List Screen)
  /-- `renderer->render()` -/
  | rendered (renderer : Renderer)

end MatrixApplicationStandalone

structure MatrixApplicationStandalone where
  screens : List Screen := MatrixApplicationStandalone.createScreens
  renderer : Renderer :=
    { kind := .fpgaRPISPI, screens := MatrixApplicationStandalone.createScreens }
  newFrame : Bool := false
  appState : MatrixApplication.AppState := .starting
  mainThread : MatrixApplicationStandalone.MainPosition := .loopTop
  renderThread : MatrixApplicationStandalone.RenderPosition := .frameWait
  trace : List MatrixApplicationStandalone.Output := []

namespace MatrixApplicationStandalone

inductive Event where
  /-- the last line of `start` -/
  | start
  | pause
  | resume
  /-- A step of the main thread outside `loop`. -/
  | main
  | draw (screens : List Screen)
  | loopReturns (running : Bool)
  /-- A step of the render thread; `beyond` is what lies behind the data of a screen. -/
  | render (beyond : Nat → Color)

def Event.renders : Event → Bool
  | .render _ => true
  | .start | .pause | .resume | .main | .draw _ | .loopReturns _ => false

/-- `renderer->setScreenData` with the data of a screen. The bound check compares with a `size_t`,
for which a negative id is too large. -/
def copyScreen (r : Renderer) (screen : Screen) (beyond : Nat → Color) : Renderer :=
  if screen.screenId < 0 then r
  else
    (r.setScreenData screen.screenId.toNat fun index =>
      screen.screenData[index]?.getD (beyond index)).1

def step (a : MatrixApplicationStandalone) : Event → Option MatrixApplicationStandalone
  | .start => some { a with appState := .running }
  | .pause => some (if a.appState = .running then { a with appState := .paused } else a)
  | .resume => some (if a.appState = .paused then { a with appState := .running } else a)
  | .main =>
      match a.mainThread with
      | .loopTop =>
          some { a with mainThread := if a.appState = .running then .frameWait else .loopTop }
      | .frameWait => if a.newFrame then none else some { a with mainThread := .drawing }
      | _ => none
  | .draw screens => if a.mainThread = .drawing then some { a with screens } else none
  | .loopReturns running =>
      if a.mainThread = .drawing then
        some
          { a with
            newFrame := true
            mainThread := if running then .loopTop else .finished
            trace := a.trace ++ [.looped a.screens] }
      else none
  | .render beyond =>
      match a.renderThread with
      | .frameWait => if a.newFrame then some { a with renderThread := .copying 0 } else none
      | .copying next =>
          match a.screens[next]? with
          | some screen =>
              some
                { a with
                  renderer := copyScreen a.renderer screen beyond
                  renderThread := .copying (next + 1) }
          | none => some { a with newFrame := false, renderThread := .rendering }
      | .rendering =>
          some { a with renderThread := .frameWait, trace := a.trace ++ [.rendered a.renderer] }

def standaloneRuns : TransitionSystem MatrixApplicationStandalone Event where
  initial := {}
  step := step

/-- `loop` draws on the screens it was given. -/
def DrawsOnScreens (a : MatrixApplicationStandalone) : Event → Prop
  | .draw screens => screens.map Screen.layout = a.screens.map Screen.layout ∧
      ∀ s ∈ screens, s.Full
  | _ => True

instance (a : MatrixApplicationStandalone) : (e : Event) → Decidable (a.DrawsOnScreens e)
  | .draw _ => inferInstanceAs (Decidable (_ ∧ _))
  | .start | .pause | .resume | .main | .loopReturns _ | .render _ => isTrue True.intro

def Output.screens : Output → Option (List Screen)
  | .looped screens => some screens
  | .rendered _ => none

def Output.renderer : Output → Option Renderer
  | .rendered renderer => some renderer
  | .looped _ => none

/-- The screens that `loop` has left, turn by turn, and the renderers when they rendered. -/
def drawn (a : MatrixApplicationStandalone) : List (List Screen) := a.trace.filterMap Output.screens

def rendered (a : MatrixApplicationStandalone) : List Renderer := a.trace.filterMap Output.renderer

def pixels (screens : List Screen) : List (List Color) := screens.map Screen.screenData

def MainPosition.producer : MainPosition → Producer
  | .loopTop | .frameWait => .waiting
  | .drawing => .drawing
  | .finished => .ended

def RenderPosition.consumer : RenderPosition → Consumer
  | .frameWait => .waiting
  | .copying next => .copying next
  | .rendering => .showing

/-- The two threads as producer and consumer of pictures. -/
def handoff (a : MatrixApplicationStandalone) : Handoff (List Color) where
  source := pixels a.screens
  copy := pixels a.renderer.screens
  flag := a.newFrame
  producer := a.mainThread.producer
  consumer := a.renderThread.consumer
  done := a.drawn.map pixels
  shown := a.rendered.map fun renderer => pixels renderer.screens

/-- What a step is for the handoff: a step of the side whose thread takes it, or none. -/
def Matches (a a' : MatrixApplicationStandalone) (renders : Bool) : Prop :=
  (renders = false ∧ a'.handoff = a.handoff) ∨
    ∃ e, e.consumes = renders ∧ a.handoff.step e = some a'.handoff

/-- What the renderer keeps: its panels, mounted as built. -/
def mountings (screens : List Screen) : List ((Int × Int × Int) × Int × Int × Rotation) :=
  screens.map fun s => (s.layout, s.offsetX, s.offsetY, s.rotation)

/-- A renderer that only its pixels tell from the one that was built. -/
structure Built (r : Renderer) : Prop where
  kind : r.kind = .fpgaRPISPI
  mounted : mountings r.screens = mountings createScreens
  full : ∀ s ∈ r.screens, s.Full

structure Inv (a : MatrixApplicationStandalone) : Prop where
  pictures : a.handoff.Inv
  layouts : a.screens.map Screen.layout = createScreens.map Screen.layout
  full : ∀ s ∈ a.screens, s.Full
  built : Built a.renderer
  outputs : ∀ r ∈ a.rendered, Built r
  turns : ∀ screens ∈ a.drawn, screens.map Screen.layout = createScreens.map Screen.layout ∧
    ∀ s ∈ screens, s.Full

theorem mountings_createScreens : mountings createScreens =
    [((0, 64, 64), 1, 1, .rot180), ((1, 64, 64), 0, 1, .rot180), ((2, 64, 64), 1, 0, .rot90),
      ((3, 64, 64), 2, 1, .rot180), ((4, 64, 64), 0, 0, .rot270), ((5, 64, 64), 2, 0, .rot270)] :=
  rfl

theorem layouts_createScreens : createScreens.map Screen.layout =
    (List.range 6).map fun place : Nat => ((place : Int), 64, 64) := rfl

theorem full_createScreens : ∀ s ∈ createScreens, s.Full := by
  intro s hs
  obtain ⟨entry, -, hentry⟩ := List.mem_filterMap.mp hs
  obtain ⟨screen, hnew, rfl⟩ := Option.map_eq_some_iff.mp hentry
  have hfull := (Screen.new_full hnew).1
  exact ⟨hfull.nonneg, hfull.size, hfull.length⟩

/-- The panels of a renderer as it was built fill the slots of the hardware. -/
theorem Built.panels {r : Renderer} (h : Built r) : r.Panels := by
  constructor
  · intro s hs
    have hmem : (s.layout, s.offsetX, s.offsetY, s.rotation) ∈ mountings r.screens :=
      List.mem_map.mpr ⟨s, hs, rfl⟩
    rw [h.mounted, mountings_createScreens] at hmem
    simp only [List.mem_cons, Prod.mk.injEq, Screen.layout, List.not_mem_nil, or_false] at hmem
    exact ⟨h.full s hs, by omega, by omega⟩
  · have hslots := congrArg (List.map fun mount => (mount.2.1, mount.2.2.1)) h.mounted
    rw [h.mounted.symm.trans h.mounted, mountings_createScreens, mountings, List.map_map] at hslots
    have hkind := h.kind
    have hslot : r.slotOf = (fun mount : (Int × Int × Int) × Int × Int × Rotation =>
        (mount.2.1, mount.2.2.1)) ∘ fun s => (s.layout, s.offsetX, s.offsetY, s.rotation) := by
      funext s
      simp only [Renderer.slotOf, hkind, RendererKind.slotOf, Function.comp_apply]
    rw [hslot, hslots, hkind]
    decide

/-- Copying all the data of a screen to one of the same size. -/
theorem setScreenData_copy (s : Screen) {client : Screen} (hfull : client.Full)
    (hsize : s.screenDataSize = client.screenDataSize) (beyond : Nat → Color) :
    (s.setScreenData fun index => client.screenData[index]?.getD (beyond index)).screenData =
      client.screenData := by
  apply List.ext_getElem
  · simp [Screen.setScreenData, hsize, hfull.length]
  · intro index _ hindex
    simp [Screen.setScreenData, hindex]

theorem map_set_same {α β : Type} {f : α → β} {entries : List α} {place : Nat} {old new : α}
    (hold : entries[place]? = some old) (hsame : f new = f old) :
    (entries.set place new).map f = entries.map f := by
  obtain ⟨hlt, rfl⟩ := List.getElem?_eq_some_iff.mp hold
  rw [List.map_set, hsame, ← List.map_set, List.set_getElem_self]

theorem layout_at {screens : List Screen}
    (hlayouts : screens.map Screen.layout = createScreens.map Screen.layout) {place : Nat}
    {s : Screen} (hs : screens[place]? = some s) : s.layout = ((place : Int), 64, 64) := by
  have hat := congrArg (·[place]?) (hlayouts.trans layouts_createScreens)
  simp only [List.getElem?_map, hs, Option.map_some] at hat
  obtain ⟨number, hnumber, hlayout⟩ := Option.map_eq_some_iff.mp hat.symm
  obtain ⟨hlt, rfl⟩ := List.getElem?_eq_some_iff.mp hnumber
  rw [← hlayout, List.getElem_range]

theorem Built.exists_at {r : Renderer} (h : Built r) {screens : List Screen}
    (hlayouts : screens.map Screen.layout = createScreens.map Screen.layout) {place : Nat}
    {s : Screen} (hs : screens[place]? = some s) :
    ∃ panel, r.screens[place]? = some panel ∧ panel.layout = s.layout := by
  have hrenderer : r.screens.map Screen.layout = createScreens.map Screen.layout := by
    have hmounted := congrArg (List.map Prod.fst) h.mounted
    simpa only [mountings, List.map_map, Function.comp_def] using hmounted
  have hat := congrArg (·[place]?) (hrenderer.trans hlayouts.symm)
  simp only [List.getElem?_map, hs, Option.map_some] at hat
  obtain ⟨panel, hpanel, hlayout⟩ := Option.map_eq_some_iff.mp hat
  exact ⟨panel, hpanel, hlayout⟩

/-- Copying a screen changes the pixels of its panel, and nothing else of the renderer. -/
theorem Built.copy {r : Renderer} (h : Built r) {screens : List Screen}
    (hlayouts : screens.map Screen.layout = createScreens.map Screen.layout)
    (hfull : ∀ s ∈ screens, s.Full) {next : Nat} {screen : Screen}
    (hscreen : screens[next]? = some screen) (beyond : Nat → Color) :
    Built (copyScreen r screen beyond) ∧
      pixels (copyScreen r screen beyond).screens =
        (pixels r.screens).set next screen.screenData := by
  obtain ⟨panel, hpanel, hlayout⟩ := h.exists_at hlayouts hscreen
  have hid := layout_at hlayouts hscreen
  have hpanelFull := h.full panel (List.mem_of_getElem? hpanel)
  have hscreenFull := hfull screen (List.mem_of_getElem? hscreen)
  simp only [Screen.layout, Prod.mk.injEq] at hid hlayout
  have hsize : panel.screenDataSize = screen.screenDataSize := by
    rw [hpanelFull.size, hscreenFull.size, hlayout.2.1, hlayout.2.2]
  have hplace : screen.screenId.toNat = next := by omega
  have hset : copyScreen r screen beyond =
      { r with screens := r.screens.set next (panel.setScreenData fun index =>
          screen.screenData[index]?.getD (beyond index)) } := by
    rw [copyScreen, if_neg (by omega)]
    simp only [Renderer.setScreenData, h.kind, FPGARendererRPISPI.setScreenData, storeScreenData,
      hplace, hpanel]
  rw [hset]
  refine ⟨⟨h.kind, ?_, ?_⟩, ?_⟩
  · refine Eq.trans ?_ h.mounted
    rw [mountings]
    exact map_set_same hpanel rfl
  · intro s hs
    cases List.mem_or_eq_of_mem_set hs with
    | inl hold => exact h.full s hold
    | inr hnew =>
        subst hnew
        exact hpanelFull.setScreenData _
  · rw [pixels, List.map_set, setScreenData_copy panel hscreenFull hsize beyond]
    rfl

section
variable {a a' : MatrixApplicationStandalone}

theorem Inv.of_matches (h : a.Inv) {renders : Bool} (hmatches : a.Matches a' renders)
    (hlayouts : a'.screens.map Screen.layout = createScreens.map Screen.layout)
    (hfull : ∀ s ∈ a'.screens, s.Full) (hbuilt : Built a'.renderer)
    (hrendered : ∀ r ∈ a'.rendered, Built r)
    (hdrawn : ∀ screens ∈ a'.drawn, screens.map Screen.layout = createScreens.map Screen.layout ∧
      ∀ s ∈ screens, s.Full) : a'.Inv ∧ a.Matches a' renders := by
  refine ⟨⟨?_, hlayouts, hfull, hbuilt, hrendered, hdrawn⟩, hmatches⟩
  cases hmatches with
  | inl hsame => rw [hsame.2]; exact h.pictures
  | inr hstep =>
      obtain ⟨e, -, hstep⟩ := hstep
      exact h.pictures.step hstep

theorem Inv.main (h : a.Inv) (hstep : a.step .main = some a') :
    a'.Inv ∧ a.Matches a' false := by
  simp only [step] at hstep
  split at hstep
  · rename_i hposition
    cases hstep
    refine h.of_matches (.inl ⟨rfl, ?_⟩) h.layouts h.full h.built h.outputs h.turns
    simp only [handoff, hposition]
    split <;> rfl
  · rename_i hposition
    split at hstep
    · cases hstep
    · rename_i hflag
      cases hstep
      refine h.of_matches (.inr ⟨.begin, rfl, ?_⟩) h.layouts h.full h.built h.outputs h.turns
      have hlow : a.newFrame = false := by simpa using hflag
      simp only [handoff, Handoff.step, hposition, hlow]
      rfl
  · cases hstep

theorem Inv.draw (h : a.Inv) {screens : List Screen}
    (hlayouts : screens.map Screen.layout = a.screens.map Screen.layout)
    (hfull : ∀ s ∈ screens, s.Full) (hstep : a.step (.draw screens) = some a') :
    a'.Inv ∧ a.Matches a' false := by
  simp only [step, Option.ite_none_right_eq_some, Option.some.injEq] at hstep
  obtain ⟨hposition, rfl⟩ := hstep
  refine h.of_matches (.inr ⟨.draw (pixels screens), rfl, ?_⟩) (hlayouts.trans h.layouts) hfull
    h.built h.outputs h.turns
  have hlength : (pixels screens).length = (pixels a.screens).length := by
    have hcount := congrArg List.length hlayouts
    simpa only [pixels, List.length_map] using hcount
  simp only [handoff, Handoff.step, hposition, hlength]
  rfl

theorem Inv.loopReturns (h : a.Inv) {running : Bool}
    (hstep : a.step (.loopReturns running) = some a') : a'.Inv ∧ a.Matches a' false := by
  simp only [step, Option.ite_none_right_eq_some, Option.some.injEq] at hstep
  obtain ⟨hposition, rfl⟩ := hstep
  refine h.of_matches (.inr ⟨.finish running, rfl, ?_⟩) h.layouts h.full h.built ?_ ?_
  · simp only [handoff, Handoff.step, hposition, drawn, rendered, List.filterMap_append]
    cases running <;> simp [MainPosition.producer, Output.screens, Output.renderer]
  · intro r hr
    refine h.outputs r ?_
    simpa [rendered, Output.renderer] using hr
  · intro screens hscreens
    simp only [drawn, List.filterMap_append, List.mem_append] at hscreens
    cases hscreens with
    | inl hbefore => exact h.turns screens hbefore
    | inr hnew =>
        have hsame : screens = a.screens := by simpa [Output.screens] using hnew
        rw [hsame]
        exact ⟨h.layouts, h.full⟩

theorem Inv.render (h : a.Inv) {beyond : Nat → Color}
    (hstep : a.step (.render beyond) = some a') : a'.Inv ∧ a.Matches a' true := by
  simp only [step] at hstep
  split at hstep
  · rename_i hposition
    simp only [Option.ite_none_right_eq_some, Option.some.injEq] at hstep
    obtain ⟨hflag, rfl⟩ := hstep
    refine h.of_matches (.inr ⟨.start, rfl, ?_⟩) h.layouts h.full h.built h.outputs h.turns
    simp only [handoff, Handoff.step, hposition, hflag]
    rfl
  · rename_i next hposition
    split at hstep
    · rename_i screen hscreen
      cases hstep
      obtain ⟨hbuilt, hpixels⟩ := h.built.copy h.layouts h.full hscreen beyond
      refine h.of_matches (.inr ⟨.copy, rfl, ?_⟩) h.layouts h.full hbuilt h.outputs h.turns
      have hcell : (pixels a.screens)[next]? = some screen.screenData := by
        rw [pixels, List.getElem?_map, hscreen, Option.map_some]
      simp only [handoff, Handoff.step, hposition, RenderPosition.consumer, hcell, Option.map_some,
        hpixels]
      rfl
    · rename_i hend
      cases hstep
      refine h.of_matches (.inr ⟨.lower, rfl, ?_⟩) h.layouts h.full h.built h.outputs h.turns
      have hconsumer : a.handoff.consumer = .copying next := by
        rw [handoff, hposition]
        rfl
      have hle := (h.pictures.copying next hconsumer).2.1
      have hlength : (pixels a.screens).length = next := by
        have hbound := List.getElem?_eq_none_iff.mp hend
        simp only [handoff, pixels, List.length_map] at hle ⊢
        omega
      simp only [handoff, Handoff.step, hposition, RenderPosition.consumer, hlength]
      rfl
  · rename_i hposition
    cases hstep
    refine h.of_matches (.inr ⟨.present, rfl, ?_⟩) h.layouts h.full h.built ?_ ?_
    · simp only [handoff, Handoff.step, hposition, drawn, rendered, List.filterMap_append]
      simp [RenderPosition.consumer, Output.screens, Output.renderer]
    · intro r hr
      simp only [rendered, List.filterMap_append, List.mem_append] at hr
      cases hr with
      | inl hbefore => exact h.outputs r hbefore
      | inr hnew =>
          have hsame : r = a.renderer := by simpa [Output.renderer] using hnew
          rw [hsame]
          exact h.built
    · intro screens hscreens
      refine h.turns screens ?_
      simpa [drawn, Output.screens] using hscreens

theorem Inv.step (h : a.Inv) {e : Event} (hdraws : a.DrawsOnScreens e)
    (hstep : a.step e = some a') : a'.Inv ∧ a.Matches a' e.renders := by
  cases e with
  | start =>
      cases hstep
      exact h.of_matches (.inl ⟨rfl, rfl⟩) h.layouts h.full h.built h.outputs h.turns
  | pause | resume =>
      cases hstep
      split
      · exact h.of_matches (.inl ⟨rfl, rfl⟩) h.layouts h.full h.built h.outputs h.turns
      · exact ⟨h, .inl ⟨rfl, rfl⟩⟩
  | main => exact h.main hstep
  | draw screens => exact h.draw hdraws.1 hdraws.2 hstep
  | loopReturns running => exact h.loopReturns hstep
  | render beyond => exact h.render hstep

theorem inv_of_reachable (h : standaloneRuns.ReachableUnder DrawsOnScreens a) : a.Inv := by
  refine h.invariant Inv ⟨⟨rfl, fun hdrawing => (by cases hdrawing), fun next hnext => ?_, rfl⟩,
    rfl, full_createScreens, ⟨rfl, rfl, full_createScreens⟩, ?_, ?_⟩ fun _ _ _ hinv hdraws hstep =>
      (hinv.step hdraws hstep).1
  · cases hnext
  · exact fun _ hmem => False.elim (List.not_mem_nil hmem)
  · exact fun _ hmem => False.elim (List.not_mem_nil hmem)

/-- The panel of a renderer as it was built, at a place of the configuration. -/
theorem Built.panel_at {r : Renderer} (h : Built r) {place : Nat} {panel : Screen}
    (hpanel : r.screens[place]? = some panel) {entry : Int × ScreenOrientation}
    (hentry : createDefaultCubeConfig[place]? = some entry) :
    panel.rotation = (mountOf entry.2).2.2 ∧
      r.slotOf panel = ((mountOf entry.2).1, (mountOf entry.2).2.1) := by
  have hbuilt : mountings createScreens = createDefaultCubeConfig.map fun entry =>
      ((entry.1, 64, 64), (mountOf entry.2).1, (mountOf entry.2).2.1, (mountOf entry.2).2.2) := rfl
  have hat := congrArg (·[place]?) (h.mounted.trans hbuilt)
  simp only [mountings, List.getElem?_map, hpanel, hentry, Option.map_some, Option.some.injEq,
    Prod.mk.injEq] at hat
  have hkind := h.kind
  obtain ⟨-, hoffsetX, hoffsetY, hrotation⟩ := hat
  refine ⟨hrotation, ?_⟩
  simp only [Renderer.slotOf, hkind, RendererKind.slotOf, hoffsetX, hoffsetY]

/-- Whatever the two threads do, what is rendered is what the turns of `loop` have left, turn by
turn; at most two turns are not rendered yet. A rendered pixel is at the wire of its panel. -/
theorem standalone_shows_drawn (h : standaloneRuns.ReachableUnder DrawsOnScreens a)
    (dimmed : Color → Color) :
    (a.rendered.map fun r => pixels r.screens) <+: a.drawn.map pixels ∧
      a.drawn.length ≤ a.rendered.length + 2 ∧
      ∀ (turn : Nat) (r : Renderer) (screens : List Screen), a.rendered[turn]? = some r →
        a.drawn[turn]? = some screens →
        ∀ (place : Nat) (client : Screen) (entry : Int × ScreenOrientation),
          screens[place]? = some client → createDefaultCubeConfig[place]? = some entry →
          ∀ p ∈ rect 64 64, ∃ c, client.getPixel p.1 p.2 = some c ∧
            r.sentWord dimmed
                (panelWire (mountOf entry.2).2.2 ((mountOf entry.2).1, (mountOf entry.2).2.1) p).1
                (panelWire (mountOf entry.2).2.2 ((mountOf entry.2).1, (mountOf entry.2).2.1) p).2 =
              some (r.wordOf dimmed c) := by
  have hinv := inv_of_reachable h
  obtain ⟨hinOrder, hbehind⟩ := hinv.pictures.shown
  refine ⟨hinOrder, by simpa [handoff] using hbehind, ?_⟩
  intro turn r screens hr hscreens place client entry hclient hentry p hp
  have hbuilt := hinv.outputs r (List.mem_of_getElem? hr)
  have hlayouts := (hinv.turns screens (List.mem_of_getElem? hscreens)).1
  have hpictures : pixels r.screens = pixels screens := by
    obtain ⟨rest, hrest⟩ := hinOrder
    have hat : (a.rendered.map (fun r => pixels r.screens) ++ rest)[turn]? =
        (a.drawn.map pixels)[turn]? := congrArg (·[turn]?) hrest
    rw [List.getElem?_append_left (by
      rw [List.length_map]
      exact (List.getElem?_eq_some_iff.mp hr).1)] at hat
    simpa only [List.getElem?_map, hr, hscreens, Option.map_some, Option.some.injEq] using hat
  obtain ⟨panel, hpanel, hlayout⟩ := hbuilt.exists_at hlayouts hclient
  have hdata : panel.screenData = client.screenData := by
    have hat := congrArg (·[place]?) hpictures
    simpa only [pixels, List.getElem?_map, hpanel, hclient, Option.map_some,
      Option.some.injEq] using hat
  simp only [Screen.layout, Prod.mk.injEq] at hlayout
  have hmem := List.mem_of_getElem? hpanel
  have hpixel := Screen.getPixel_congr hlayout.2.1 hlayout.2.2 hdata p.1 p.2
  obtain ⟨hrotation, hslot⟩ := hbuilt.panel_at hpanel hentry
  obtain ⟨c, hc⟩ := (hbuilt.panels.square panel hmem).exists_pixel hp
  have hword := hbuilt.panels.sentWord_eq (.inr hbuilt.kind) dimmed hmem hp
  rw [hpixel] at hc
  rw [hpixel, hc, hrotation, hslot, Option.map_some] at hword
  exact ⟨c, hc, hword⟩

/-- One turn of `loop`, and the render thread after it. -/
def oneTurn : List Event :=
  [.start, .main, .main, .loopReturns true] ++ List.replicate 9 (.render fun _ => .black)

theorem standalone_shows_drawn_front : ∃ (a : MatrixApplicationStandalone) (r : Renderer)
    (screens : List Screen), a.rendered[0]? = some r ∧ a.drawn[0]? = some screens ∧
      ∀ client ∈ screens[0]?, ∃ c, client.getPixel 0 0 = some c ∧
        r.sentWord id 127 254 = some (r.wordOf id c) := by
  obtain ⟨a, hreach, htest⟩ := TransitionSystem.ReachableUnder.of_test (M := standaloneRuns)
    DrawsOnScreens oneTurn (fun a => a.rendered.length = 1 ∧ a.drawn.length = 1) (by decide +kernel)
  obtain ⟨hrendered, hdrawn⟩ := of_decide_eq_true htest
  obtain ⟨-, -, hpixels⟩ := standalone_shows_drawn hreach id
  obtain ⟨r, hr⟩ := List.length_eq_one_iff.mp hrendered
  obtain ⟨screens, hscreens⟩ := List.length_eq_one_iff.mp hdrawn
  refine ⟨a, r, screens, by rw [hr]; rfl, by rw [hscreens]; rfl, ?_⟩
  intro client hclient
  have hfirst : createDefaultCubeConfig[0]? = some (0, .front) := rfl
  exact hpixels 0 r screens (by rw [hr]; rfl) (by rw [hscreens]; rfl) 0 client _ hclient hfirst
    (0, 0) ⟨by decide, by decide, by decide, by decide⟩

theorem length_drawn : a.handoff.done.length = a.drawn.length := List.length_map _

theorem length_rendered : a.handoff.shown.length = a.rendered.length := List.length_map _

/-- While a turn of `loop` is not rendered, the render thread does not wait. -/
theorem Inv.render_enabled (h : a.Inv) (hleft : a.rendered.length < a.drawn.length)
    (beyond : Nat → Color) : ∃ a', a.step (.render beyond) = some a' := by
  simp only [MatrixApplicationStandalone.step]
  cases hposition : a.renderThread with
  | frameWait =>
      have hconsumer : a.handoff.consumer = .waiting := by
        rw [handoff, hposition]
        rfl
      have hflag : a.newFrame = true :=
        h.pictures.raised hconsumer (by rwa [length_drawn, length_rendered])
      exact ⟨_, if_pos hflag⟩
  | copying next =>
      dsimp only
      split
      · exact ⟨_, rfl⟩
      · exact ⟨_, rfl⟩
  | rendering => exact ⟨_, rfl⟩

theorem Matches.nearer {renders : Bool} (hmatches : a.Matches a' renders) (h : a.Inv) {count : Nat}
    (hcount : count ≤ a.handoff.done.length) : count ≤ a'.handoff.done.length ∧
      a'.handoff.stepsUntilShown count ≤ a.handoff.stepsUntilShown count - renders.toNat := by
  cases hmatches with
  | inl hsame =>
      obtain ⟨rfl, hsame⟩ := hsame
      rw [hsame]
      exact ⟨hcount, Nat.le_refl _⟩
  | inr hstep =>
      obtain ⟨e, rfl, hstep⟩ := hstep
      exact h.pictures.nearer hcount hstep

theorem Inv.nearer_after (h : a.Inv) {count : Nat} (hcount : count ≤ a.handoff.done.length)
    (events : List Event)
    (hrun : standaloneRuns.replayUnder DrawsOnScreens a events = some a') :
    a'.handoff.stepsUntilShown count ≤
      a.handoff.stepsUntilShown count - events.countP Event.renders := by
  induction events generalizing a with
  | nil =>
      cases hrun
      exact Nat.le_refl _
  | cons e events ih =>
      simp only [TransitionSystem.replayUnder, Option.ite_none_right_eq_some] at hrun
      obtain ⟨hdraws, hrun⟩ := hrun
      obtain ⟨a₁, hstep, hrest⟩ := Option.bind_eq_some_iff.mp hrun
      obtain ⟨hinv, hmatches⟩ := h.step hdraws hstep
      obtain ⟨hcount', hnear⟩ := hmatches.nearer h hcount
      have hfurther := ih hinv hcount' hrest
      rw [List.countP_cons]
      cases hrenders : e.renders with
      | true =>
          rw [hrenders, Bool.toNat_true] at hnear
          simp only [if_true]
          omega
      | false =>
          rw [hrenders, Bool.toNat_false] at hnear
          simp only [Bool.false_eq_true, if_false]
          omega

/-- What `loop` has left is rendered: the render thread does not wait while a turn is not
rendered, and after ten of its steps, whatever the main thread does, all turns there were are. -/
theorem standalone_renders_all (h : standaloneRuns.ReachableUnder DrawsOnScreens a) :
    (a.rendered.length < a.drawn.length →
        ∀ beyond, ∃ a', a.step (.render beyond) = some a') ∧
      ∀ events a', standaloneRuns.replayUnder DrawsOnScreens a events = some a' →
        10 ≤ events.countP Event.renders → a.drawn.length ≤ a'.rendered.length := by
  have hinv := inv_of_reachable h
  refine ⟨hinv.render_enabled, ?_⟩
  intro events a' hrun hturns
  have hnear := hinv.nearer_after (Nat.le_refl _) events hrun
  have hbound := Handoff.stepsUntilShown_le (h := a.handoff) a.handoff.done.length
  have hsix : a.handoff.source.length = 6 := by
    have hcount := congrArg List.length hinv.layouts
    simpa [handoff, pixels, layouts_createScreens] using hcount
  have hzero : a'.handoff.stepsUntilShown a.handoff.done.length = 0 := by omega
  rw [Handoff.stepsUntilShown_eq_zero, length_drawn, length_rendered] at hzero
  exact hzero

/-- A turn of `loop`, and then ten steps of the render thread with a second turn among them. -/
def firstTurn : List Event := [.start, .main, .main, .loopReturns true]

def secondTurn : List Event :=
  List.replicate 9 (.render fun _ => .black) ++
    [.main, .main, .loopReturns true, .render fun _ => .black]

theorem standalone_renders_all_first : ∃ a a' : MatrixApplicationStandalone,
    standaloneRuns.ReachableUnder DrawsOnScreens a ∧ a.drawn.length = 1 ∧
      standaloneRuns.replayUnder DrawsOnScreens a secondTurn = some a' ∧
      a.drawn.length ≤ a'.rendered.length := by
  obtain ⟨a, hreach, htest⟩ := TransitionSystem.ReachableUnder.of_test (M := standaloneRuns)
    DrawsOnScreens firstTurn (fun a => a.drawn.length = 1 ∧
      (standaloneRuns.replayUnder DrawsOnScreens a secondTurn).isSome) (by decide +kernel)
  obtain ⟨hdrawn, hsome⟩ := of_decide_eq_true htest
  obtain ⟨a', hrun⟩ := Option.isSome_iff_exists.mp hsome
  exact ⟨a, a', hreach, hdrawn, hrun, (standalone_renders_all hreach).2 _ _ hrun (by decide)⟩

end
end MatrixApplicationStandalone
end MatrixServer
