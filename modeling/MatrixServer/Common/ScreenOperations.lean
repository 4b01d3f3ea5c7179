import MatrixServer.Common.ScreenPixels

/-!
All operations of common/Screen.cpp.
The size of a screen is in its sides, in `screenDataSize` and in the length of `screenData`.
Every operation keeps these three in agreement except the assignment of a vector, which takes
a vector of any length.
-/

namespace MatrixServer
namespace Screen

def setPixelColor (s : Screen) (x y : Int) (col : Color) : Option Screen := s.setPixel x y col false

def setPixelRgb (s : Screen) (x y : Int) (red green blue : UInt8) : Option Screen :=
  s.setPixelColor x y ⟨red, green, blue⟩

/-- `memset` of all the bytes in `screenData` -/
def clear (s : Screen) : Screen := { s with screenData := s.screenData.map fun _ => .black }

def fillRgb (s : Screen) (red green blue : UInt8) : Screen :=
  { s with screenData := s.screenData.map fun _ => ⟨red, green, blue⟩ }

def fill (s : Screen) (col : Color) : Screen := s.fillRgb col.r col.g col.b

/-- `dimmed` is what `color *= factor` makes of a colour, none when the factor is not between 0
and 1. -/
def fade (s : Screen) (dimmed : Option (Color → Color)) : Screen :=
  dimmed.elim s fun f => { s with screenData := s.screenData.map f }

/-- `setScreenData(std::vector<Color> &newScreenData)` -/
def setScreenVector (s : Screen) (newScreenData : List Color) : Screen :=
  { s with screenData := newScreenData }

/-- A call of a public member function that changes the screen. -/
inductive Operation where
  | setPixelRgb (x y : Int) (red green blue : UInt8)
  | setPixelColor (x y : Int) (col : Color)
  | setPixel (x y : Int) (col : Color) (add : Bool)
  | clear
  | fade (dimmed : Option (Color → Color))
  | fillRgb (red green blue : UInt8)
  | fill (col : Color)
  | setScreenData (data : Nat → Color)
  | setScreenVector (newScreenData : List Color)
  | setScreenId (newScreenId : Int)
  | setRotation (newRotation : Rotation)
  | setOffsetX (offset : Int)
  | setOffsetY (offset : Int)

/-- The screen after a call, none when the call throws. -/
def perform (s : Screen) : Operation → Option Screen
  | .setPixelRgb x y red green blue => s.setPixelRgb x y red green blue
  | .setPixelColor x y col => s.setPixelColor x y col
  | .setPixel x y col add => s.setPixel x y col add
  | .clear => some s.clear
  | .fade dimmed => some (s.fade dimmed)
  | .fillRgb red green blue => some (s.fillRgb red green blue)
  | .fill col => some (s.fill col)
  | .setScreenData data => some (s.setScreenData data)
  | .setScreenVector newScreenData => some (s.setScreenVector newScreenData)
  | .setScreenId newScreenId => some { s with screenId := newScreenId }
  | .setRotation newRotation => some { s with rotation := newRotation }
  | .setOffsetX offset => some { s with offsetX := offset }
  | .setOffsetY offset => some { s with offsetY := offset }

/-- The screen after some calls on a new one. -/
def afterCalls (w h id : Int) (operations : List Operation) : Option Screen :=
  (new w h id).bind fun s => operations.foldlM perform s

/-- A screen is a map of its pixels: reading finds a colour everywhere, black outside, and
writing a pixel changes that one and no other. -/
structure PixelMap (s : Screen) (w h : Int) : Prop where
  width : s.width = w
  height : s.height = h
  size : s.screenDataSize = w * h
  length : (s.screenData.length : Int) = w * h
  found : ∀ x y, ∃ col, s.getPixel x y = some col
  outside : ∀ x y, ¬ s.Contains x y → s.getPixel x y = some .black ∧
    ∀ col add, s.setPixel x y col add = some s
  written : ∀ x y col add, ∃ s', s.setPixel x y col add = some s' ∧
    (s.Contains x y → ∃ old, s.getPixel x y = some old ∧
      s'.getPixel x y = some (if add then old + col else col)) ∧
    ∀ x' y', (x', y') ≠ (x, y) → s'.getPixel x' y' = s.getPixel x' y'

theorem Full.getPixel_inside {s : Screen} (h : s.Full) {x y : Int} (hin : s.Contains x y) :
    ∃ old, s.getPixel x y = some old ∧ ∀ col add,
      s.setPixel x y col add = some (s.paint x y (if add then old + col else col)) := by
  have hindex := h.index_lt_length hin
  refine ⟨s.screenData[(s.getArrayIndex x y).toNat], ?_, fun col add => ?_⟩
  · rw [getPixel, if_pos hin, List.getElem?_eq_getElem hindex]
  · rw [setPixel, if_pos hin]
    simp only [List.getElem?_eq_getElem hindex, Option.map_some]
    rfl

theorem Full.pixelMap {s : Screen} (h : s.Full) : s.PixelMap s.width s.height := by
  have houtside : ∀ x y, ¬ s.Contains x y → s.getPixel x y = some .black := fun x y hout =>
    if_neg hout
  refine ⟨rfl, rfl, h.size, ?_, fun x y => ?_, fun x y hout => ?_, fun x y col add => ?_⟩
  · rw [h.length, h.size, Int.toNat_of_nonneg h.nonneg]
  · by_cases hin : s.Contains x y
    · obtain ⟨old, hold, -⟩ := h.getPixel_inside hin
      exact ⟨old, hold⟩
    · exact ⟨.black, houtside x y hin⟩
  · exact ⟨houtside x y hout, fun col add => setPixel_outside hout col add⟩
  · by_cases hin : s.Contains x y
    · obtain ⟨old, hold, hpaint⟩ := h.getPixel_inside hin
      refine ⟨_, hpaint col add, fun _ => ⟨old, hold, ?_⟩, fun x' y' hother => ?_⟩
      · rw [getPixel_paint h hin _ hin, if_pos ⟨rfl, rfl⟩]
      · by_cases hin' : s.Contains x' y'
        · rw [getPixel_paint h hin _ hin', if_neg fun heq => hother (Prod.ext heq.1 heq.2)]
        · rw [houtside x' y' hin']
          exact if_neg hin'
    · exact ⟨s, setPixel_outside hin col add, fun hin' => absurd hin' hin, fun _ _ _ => rfl⟩

/-- A call that does not assign a vector of another length. -/
def Operation.Fits (pixels : Int) : Operation → Prop
  | .setScreenVector newScreenData => (newScreenData.length : Int) = pixels
  | _ => True

/-- A full screen of a size. -/
structure FullOf (s : Screen) (w h : Int) : Prop where
  full : s.Full
  width : s.width = w
  height : s.height = h

theorem FullOf.assigned {s : Screen} {w h : Int} (hs : s.FullOf w h) {data : List Color}
    (hlength : data.length = s.screenData.length) :
    ({ s with screenData := data } : Screen).FullOf w h :=
  ⟨⟨hs.full.nonneg, hs.full.size, hlength.trans hs.full.length⟩, hs.width, hs.height⟩

theorem FullOf.setPixel {s : Screen} {w h : Int} (hs : s.FullOf w h) (x y : Int) (col : Color)
    (add : Bool) : ∃ s', s.setPixel x y col add = some s' ∧ s'.FullOf w h := by
  by_cases hin : s.Contains x y
  · obtain ⟨old, -, hpaint⟩ := hs.full.getPixel_inside hin
    exact ⟨_, hpaint col add, hs.full.paint x y _, hs.width, hs.height⟩
  · exact ⟨s, setPixel_outside hin col add, hs⟩

/-- A call keeps a screen full, whatever its arguments, unless it assigns another length. -/
theorem FullOf.perform {s : Screen} {w h : Int} (hs : s.FullOf w h) {operation : Operation}
    (hfits : operation.Fits (w * h)) :
    ∃ s', s.perform operation = some s' ∧ s'.FullOf w h := by
  cases operation with
  | setPixelRgb x y red green blue => exact hs.setPixel x y ⟨red, green, blue⟩ false
  | setPixelColor x y col => exact hs.setPixel x y col false
  | setPixel x y col add => exact hs.setPixel x y col add
  | clear | fillRgb red green blue | fill col =>
      exact ⟨_, rfl, hs.assigned (List.length_map _)⟩
  | fade dimmed =>
      cases dimmed with
      | none => exact ⟨_, rfl, hs⟩
      | some f => exact ⟨_, rfl, hs.assigned (List.length_map _)⟩
  | setScreenData data => exact ⟨_, rfl, hs.full.setScreenData data, hs.width, hs.height⟩
  | setScreenVector newScreenData =>
      refine ⟨_, rfl, hs.assigned ?_⟩
      have hlength : (newScreenData.length : Int) = w * h := hfits
      rw [hs.full.length, hs.full.size, hs.width, hs.height]
      omega
  | setScreenId newScreenId | setRotation newRotation | setOffsetX offset | setOffsetY offset =>
      exact ⟨_, rfl, ⟨hs.full.nonneg, hs.full.size, hs.full.length⟩, hs.width, hs.height⟩

theorem FullOf.performAll {s : Screen} {w h : Int} (hs : s.FullOf w h)
    (operations : List Operation) (hfits : ∀ operation ∈ operations, operation.Fits (w * h)) :
    ∃ s', operations.foldlM Screen.perform s = some s' ∧ s'.FullOf w h := by
  induction operations generalizing s with
  | nil => exact ⟨s, rfl, hs⟩
  | cons operation operations ih =>
      obtain ⟨hfirst, hrest⟩ := List.forall_mem_cons.mp hfits
      obtain ⟨s₁, hperform, hs₁⟩ := hs.perform hfirst
      obtain ⟨s', hall, hs'⟩ := ih hs₁ hrest
      refine ⟨s', ?_, hs'⟩
      rw [List.foldlM_cons, hperform]
      exact hall

/-- A screen that is a map of its pixels after a call took no vector of another length in it. -/
theorem PixelMap.fits {s s' : Screen} {w h : Int} {operation : Operation}
    (hperform : s.perform operation = some s') (hmap : s'.PixelMap w h) :
    operation.Fits (w * h) := by
  cases operation with
  | setScreenVector newScreenData =>
      cases hperform
      exact hmap.length
  | _ => trivial

end Screen

/-- Whatever is called, a screen stays a map of its `w` by `h` pixels, just when no vector of
another length is assigned to it. -/
theorem screen_stays_map_iff (w h id : Int) (hpixels : 0 ≤ w * h)
    (operations : List Screen.Operation) :
    (∀ calls, calls <+: operations → ∃ s, Screen.afterCalls w h id calls = some s ∧
      s.PixelMap w h) ↔ ∀ operation ∈ operations, operation.Fits (w * h) := by
  obtain ⟨s₀, hnew⟩ : ∃ s₀, Screen.new w h id = some s₀ := ⟨_, if_pos hpixels⟩
  obtain ⟨hfull, -, hwidth, hheight⟩ := Screen.new_full hnew
  have hcalls : ∀ calls, Screen.afterCalls w h id calls = calls.foldlM Screen.perform s₀ :=
    fun calls => by rw [Screen.afterCalls, hnew, Option.bind_some]
  constructor
  · intro hmap operation hmem
    obtain ⟨before, after, rfl⟩ := List.append_of_mem hmem
    obtain ⟨s', hs', hpixelMap⟩ := hmap (before ++ [operation]) ⟨after, by simp⟩
    rw [hcalls, List.foldlM_append] at hs'
    obtain ⟨s, -, hlast⟩ := Option.bind_eq_some_iff.mp hs'
    rw [List.foldlM_cons] at hlast
    obtain ⟨s'', hperform, hsame⟩ := Option.bind_eq_some_iff.mp hlast
    cases hsame
    exact hpixelMap.fits hperform
  · intro hfits calls hstart
    obtain ⟨s, hs, hfullOf⟩ := (Screen.FullOf.mk hfull hwidth hheight).performAll calls
      fun operation hmem => hfits operation (hstart.subset hmem)
    refine ⟨s, by rw [hcalls, hs], ?_⟩
    have hpixelMap := hfullOf.full.pixelMap
    rw [hfullOf.width, hfullOf.height] at hpixelMap
    exact hpixelMap

/-- Calls that draw, add, dim and assign a vector of the right length. -/
theorem drawn_screen_is_map : ∃ s, Screen.afterCalls 2 1 0
    [.setPixel 1 0 ⟨1, 2, 3⟩ true, .setScreenVector [.black, ⟨9, 9, 9⟩], .clear] = some s ∧
    s.PixelMap 2 1 :=
  (screen_stays_map_iff 2 1 0 (by decide) _).mpr
    (by simp [Screen.Operation.Fits]) _ (List.prefix_refl _)

/-- After a vector of one pixel, reading the second pixel is undefined and writing it throws. -/
theorem short_vector_breaks_map : ∃ s,
    Screen.afterCalls 2 1 0 [.setScreenVector [.black]] = some s ∧ s.Contains 1 0 ∧
      s.getPixel 1 0 = none ∧ s.setPixel 1 0 .black false = none ∧ ¬ s.PixelMap 2 1 := by
  refine ⟨_, rfl, by decide, by decide, by decide, fun hmap => ?_⟩
  exact absurd hmap.length (by decide)

end MatrixServer
