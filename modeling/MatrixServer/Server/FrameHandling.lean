import MatrixServer.Server.Server

/-!
What a frame of the top app makes the server do.
Each renderer gets the entries with a valid screen id in order, renders and
causes one reply. Storing pixels changes neither the kind of a renderer nor the
sizes of its screens, so the pixels read depend on the entries alone.
-/

namespace MatrixServer

/-- The kind and the screen sizes of a renderer. -/
def Renderer.shape (r : Renderer) : RendererKind × List Int :=
  (r.kind, r.screens.map Screen.screenDataSize)

/-- How many colours a renderer reads for a screen. -/
def Renderer.readCount (r : Renderer) (screenId : Nat) : Nat :=
  if r.shape.1.storesPixels then (r.shape.2[screenId]?.getD 0).toNat else 0

theorem Renderer.setScreenData_shape (r : Renderer) (screenId : Nat) (data : Nat → Color) :
    (r.setScreenData screenId data).1.shape = r.shape := by
  rw [shape, setScreenData_sizes, setScreenData_kind]
  rfl

theorem Renderer.setScreenData_reads (r : Renderer) (screenId : Nat) (data : Nat → Color) :
    (r.setScreenData screenId data).2 = r.readCount screenId := by
  rw [setScreenData_eq, readCount, shape]
  split
  · exact storeScreenData_reads _ _ _
  · rfl

namespace Server

/-- The copy one entry causes on a renderer. -/
def entryCopy (serverConfig : ServerConfig) (r : Renderer) (entry : ScreenData) : Option Effect :=
  if entry.screenID < 0 ∨ entry.screenID ≥ serverConfig.screenInfo.length then none
  else some (.copyColors entry.frameData (r.readCount entry.screenID.toNat))

theorem storeEntry_eq (serverConfig : ServerConfig) (beyond : Nat → UInt8) (r : Renderer)
    (effects : List Effect) (entry : ScreenData) :
    (storeEntry serverConfig beyond (r, effects) entry).1.shape = r.shape ∧
      (storeEntry serverConfig beyond (r, effects) entry).2 =
        effects ++ (entryCopy serverConfig r entry).toList := by
  simp only [storeEntry, entryCopy]
  split
  · exact ⟨rfl, (List.append_nil _).symm⟩
  · refine ⟨r.setScreenData_shape _ _, ?_⟩
    rw [Renderer.setScreenData_reads]
    rfl

theorem storeEntries_eq (serverConfig : ServerConfig) (beyond : Nat → UInt8)
    (entries : List ScreenData) (r : Renderer) (effects : List Effect) :
    (entries.foldl (storeEntry serverConfig beyond) (r, effects)).1.shape = r.shape ∧
      (entries.foldl (storeEntry serverConfig beyond) (r, effects)).2 =
        effects ++ entries.filterMap (entryCopy serverConfig r) := by
  induction entries generalizing r effects with
  | nil => exact ⟨rfl, (List.append_nil _).symm⟩
  | cons entry entries ih =>
      obtain ⟨hshape, hcopy⟩ := storeEntry_eq serverConfig beyond r effects entry
      obtain ⟨hrest, hcopies⟩ :=
        ih (storeEntry serverConfig beyond (r, effects) entry).1
          (storeEntry serverConfig beyond (r, effects) entry).2
      refine ⟨hrest.trans hshape, ?_⟩
      have hsame : entryCopy serverConfig (storeEntry serverConfig beyond (r, effects) entry).1 =
          entryCopy serverConfig r := by
        funext e
        simp only [entryCopy, Renderer.readCount, hshape]
      rw [List.foldl_cons, ← Prod.eta (storeEntry serverConfig beyond (r, effects) entry), hcopies,
        hsame, hcopy, List.append_assoc]
      cases hentry : entryCopy serverConfig r entry <;> simp [hentry]

variable (serverConfig : ServerConfig) (connection : ConnectionId)
  (message : MatrixServerMessage) (beyond : Nat → UInt8)

theorem showFrame_effects (index : Nat) (r : Renderer) :
    (showFrame serverConfig connection message beyond index r).2 =
      message.screenData.filterMap (entryCopy serverConfig r) ++
        [.render index, .send connection frameReply] := by
  have hcopies := (storeEntries_eq serverConfig beyond message.screenData r []).2
  simp only [showFrame, hcopies, List.nil_append]

theorem showFrame_shape (index : Nat) (r : Renderer) :
    (showFrame serverConfig connection message beyond index r).1.shape = r.shape := by
  have hshape := (storeEntries_eq serverConfig beyond message.screenData r []).1
  simp only [showFrame]
  cases message.serverConfig <;> exact hshape

/-- The effects of a frame of the top app, renderer by renderer. -/
theorem mem_setScreenFrame_effects {s : Server} (htop : s.isTopApp message.appID = true)
    {e : Effect} :
    e ∈ (s.setScreenFrame connection message beyond).2 ↔
      ∃ index r, s.renderers[index]? = some r ∧
        (e ∈ message.screenData.filterMap (entryCopy s.serverConfig r) ∨
          e = .render index ∨ e = .send connection frameReply) := by
  simp only [setScreenFrame, htop, if_true, List.mem_flatMap, List.mem_mapIdx]
  constructor
  · rintro ⟨_, ⟨index, hlt, rfl⟩, he⟩
    rw [showFrame_effects] at he
    exact ⟨index, s.renderers[index], List.getElem?_eq_getElem hlt, by simpa using he⟩
  · rintro ⟨index, r, hr, he⟩
    obtain ⟨hlt, rfl⟩ := List.getElem?_eq_some_iff.mp hr
    refine ⟨_, ⟨index, hlt, rfl⟩, ?_⟩
    rw [showFrame_effects]
    simpa using he

theorem setScreenFrame_keeps (s : Server) :
    (s.setScreenFrame connection message beyond).1.serverConfig = s.serverConfig ∧
      (s.setScreenFrame connection message beyond).1.apps = s.apps ∧
      (s.setScreenFrame connection message beyond).1.renderers.map Renderer.shape =
        s.renderers.map Renderer.shape := by
  simp only [setScreenFrame]
  split
  · refine ⟨rfl, rfl, ?_⟩
    apply List.ext_getElem?
    intro index
    simp only [List.map_map, List.getElem?_map, List.getElem?_mapIdx, Option.map_map]
    apply congrArg (Option.map · _)
    funext r
    exact showFrame_shape s.serverConfig connection message beyond index r
  · exact ⟨rfl, rfl, rfl⟩

end Server
end MatrixServer
