import MatrixServer.Application.CubeApplication

/-!
Drawing on one face.
A point is clamped to the virtual cube and goes to the first panel that claims it. Points
beside a panel end on the edges, which the panels leave out, so they are claimed by some
panel but lie on none.
-/

namespace MatrixServer

/-- Six panels of 64 by 64 pixels. -/
structure SixPanels (screens : List Screen) : Prop where
  count : screens.length = 6
  full : ∀ s ∈ screens, s.Full
  width : ∀ s ∈ screens, s.width = CubeApplication.CUBESIZE
  height : ∀ s ∈ screens, s.height = CubeApplication.CUBESIZE

/-- The place of a face's panel in `screens`. -/
def ScreenNumber.index : ScreenNumber → Nat
  | .front => 0
  | .right => 1
  | .back => 2
  | .left => 3
  | .top => 4
  | .bottom => 5
  | .anyScreen => 6

/-- What a list of screens shows at a pixel of one of them. -/
def shownAt (screens : List Screen) (index : Nat) (x y : Int) : Option Color :=
  screens[index]?.bind fun s => s.getPixel x y

namespace CubeApplication

def OnPanel (u v : Int) : Prop := 0 ≤ u ∧ u < CUBESIZE ∧ 0 ≤ v ∧ v < CUBESIZE

instance (u v : Int) : Decidable (OnPanel u v) := inferInstanceAs (Decidable (_ ∧ _ ∧ _ ∧ _))

/-- The panel that claims a voxel of the virtual cube, with the pixel it sets. -/
def claimedBy (x y z : Int) : Option (Nat × Int × Int) :=
  if y = 0 then some (0, x - 1, z - 1)
  else if x = VIRTUALCUBEMAXINDEX then some (1, y - 1, z - 1)
  else if y = VIRTUALCUBEMAXINDEX then some (2, VIRTUALCUBEMAXINDEX - x - 1, z - 1)
  else if x = 0 then some (3, VIRTUALCUBEMAXINDEX - y - 1, z - 1)
  else if z = 0 then some (4, x - 1, VIRTUALCUBEMAXINDEX - y - 1)
  else if z = VIRTUALCUBEMAXINDEX then some (5, x - 1, y - 1)
  else none

/-- A coordinate on the virtual cube. -/
abbrev clamp (value : Int) : Int := constrain value 0 VIRTUALCUBEMAXINDEX

theorem setPixel3D_eq (screens : List Screen) (pos : Vector3i) (col : Color) :
    setPixel3D screens pos col none false =
      (claimedBy (clamp (pos 0)) (clamp (pos 1)) (clamp (pos 2))).elim (some screens) fun claim =>
        setScreenPixel screens claim.1 claim.2.1 claim.2.2 col false := by
  simp only [setPixel3D, claimedBy, clamp, Option.map_none, Option.getD_none]
  split_ifs <;> rfl

theorem clamp_cases (value : Int) :
    (value ≤ 0 ∧ clamp value = 0) ∨ (65 ≤ value ∧ clamp value = 65) ∨
      (0 < value ∧ value < 65 ∧ clamp value = value) := by
  simp only [clamp, constrain, VIRTUALCUBEMAXINDEX]
  split_ifs <;> omega

/-- What a claim makes of the point (u, v) of a face: the pixel (u, v) of the face's own panel
when there is one, and else a pixel that no panel has. -/
def ClaimFor (s : ScreenNumber) (u v : Int) (claim : Option (Nat × Int × Int)) : Prop :=
  ∃ index x y, claim = some (index, x, y) ∧ index < 6 ∧
    (OnPanel u v → index = s.index ∧ x = u ∧ y = v) ∧ (OnPanel x y → OnPanel u v)

theorem claimedBy_getPointOnScreen (unset : Vector3i) {s : ScreenNumber}
    (hs : s ≠ .anyScreen) (u v : Int) :
    ClaimFor s u v (claimedBy (clamp (getPointOnScreen unset s ![u, v] 0))
      (clamp (getPointOnScreen unset s ![u, v] 1))
      (clamp (getPointOnScreen unset s ![u, v] 2))) := by
  have hlow : clamp 0 = 0 := rfl
  have hhigh : clamp 65 = 65 := rfl
  have hu := clamp_cases (u + 1)
  have hu' := clamp_cases (65 - (u + 1))
  have hv := clamp_cases (v + 1)
  have hv' := clamp_cases (65 - (v + 1))
  cases s with
  | anyScreen => exact absurd rfl hs
  | front | right | back | left | top | bottom =>
      simp only [getPointOnScreen, Matrix.cons_val, hlow, hhigh, claimedBy, ClaimFor,
        ScreenNumber.index, OnPanel, CUBESIZE, VIRTUALCUBEMAXINDEX] at hu hu' hv hv' ⊢
      split_ifs
      all_goals exact ⟨_, _, _, rfl, by decide, by omega, by omega⟩

theorem contains_iff_onPanel {screens : List Screen} (h : SixPanels screens) {s : Screen}
    (hs : s ∈ screens) (x y : Int) : s.Contains x y ↔ OnPanel x y := by
  simp only [Screen.Contains, OnPanel, h.width s hs, h.height s hs]
  omega

theorem setScreenPixel_eq {screens : List Screen} (h : SixPanels screens) {index : Nat}
    (hindex : index < 6) (x y : Int) (col : Color) :
    setScreenPixel screens index x y col false =
      some (if OnPanel x y then screens.modify index (·.paint x y col) else screens) := by
  have hlt : index < screens.length := by rw [h.count]; exact hindex
  have hmem := List.getElem_mem hlt
  have hin := contains_iff_onPanel h hmem x y
  simp only [setScreenPixel, List.getElem?_eq_getElem hlt, Option.bind_some]
  split
  · rename_i hpanel
    rw [Screen.setPixel_inside (h.full _ hmem) (hin.mpr hpanel), List.modify_eq_set_getElem?]
    simp [hlt]
  · rename_i hpanel
    rw [Screen.setPixel_outside (hin.not.mpr hpanel)]
    simp

/-- Setting the point (u, v) of a face paints the pixel (u, v) of its panel, or nothing. -/
theorem setPixel3D_getPointOnScreen {screens : List Screen} (h : SixPanels screens)
    (unset : Vector3i) {s : ScreenNumber} (hs : s ≠ .anyScreen) (u v : Int) (col : Color) :
    setPixel3D screens (getPointOnScreen unset s ![u, v]) col none false =
      some (if OnPanel u v then screens.modify s.index (·.paint u v col) else screens) := by
  obtain ⟨index, x, y, hclaim, hindex, hon, hoff⟩ := claimedBy_getPointOnScreen unset hs u v
  rw [setPixel3D_eq, hclaim, Option.elim_some, setScreenPixel_eq h hindex]
  by_cases hpanel : OnPanel u v
  · obtain ⟨rfl, rfl, rfl⟩ := hon hpanel
    rfl
  · rw [if_neg hpanel, if_neg fun hxy => hpanel (hoff hxy)]

theorem shownAt_modify {screens : List Screen} (h : SixPanels screens) {index : Nat} {x y : Int}
    (hin : OnPanel x y) (col : Color) {index' : Nat} {x' y' : Int} (hlt : index' < 6)
    (hin' : OnPanel x' y') :
    shownAt (screens.modify index (·.paint x y col)) index' x' y' =
      if index' = index ∧ x' = x ∧ y' = y then some col else shownAt screens index' x' y' := by
  have hbound : index' < screens.length := by rw [h.count]; exact hlt
  have hmem := List.getElem_mem hbound
  have hcontains := contains_iff_onPanel h hmem
  simp only [shownAt, List.getElem?_modify, List.getElem?_eq_getElem hbound]
  by_cases hsame : index = index'
  · subst hsame
    simp only [if_pos, Option.bind_some, true_and]
    exact Screen.getPixel_paint (h.full _ hmem) ((hcontains x y).mpr hin) col
      ((hcontains x' y').mpr hin')
  · simp [hsame, Ne.symm hsame]

theorem sixPanels_modify {screens : List Screen} (h : SixPanels screens) (index : Nat) (x y : Int)
    (col : Color) : SixPanels (screens.modify index (·.paint x y col)) := by
  have hold : ∀ s ∈ screens.modify index (·.paint x y col),
      ∃ old ∈ screens, s = old ∨ s = old.paint x y col := fun s hs => by
    obtain ⟨place, hplace⟩ := List.getElem?_of_mem hs
    rw [List.getElem?_modify, Option.map_eq_map, Option.map_eq_some_iff] at hplace
    obtain ⟨old, hplaced, rfl⟩ := hplace
    refine ⟨old, List.mem_of_getElem? hplaced, ?_⟩
    split
    · exact .inr rfl
    · exact .inl rfl
  refine ⟨by rw [List.length_modify, h.count], fun s hs => ?_, fun s hs => ?_, fun s hs => ?_⟩
  all_goals obtain ⟨old, hmem, rfl | rfl⟩ := hold s hs
  · exact h.full _ hmem
  · exact (h.full _ hmem).paint x y col
  · exact h.width _ hmem
  · exact h.width old hmem
  · exact h.height _ hmem
  · exact h.height old hmem

end CubeApplication

/-- Setting a point of a face sets that pixel of the face's panel and no other pixel of any
panel; a point beside the panel sets none. -/
theorem face_drawing_clipped (unset : Vector3i) (screens : List Screen) (h : SixPanels screens)
    (s : ScreenNumber) (hs : s ≠ .anyScreen) (u v : Int) (col : Color) :
    ∃ screens', CubeApplication.setPixel3D screens
        (CubeApplication.getPointOnScreen unset s ![u, v]) col none false = some screens' ∧
      SixPanels screens' ∧
      (∀ index x y, index < 6 → CubeApplication.OnPanel x y → shownAt screens' index x y =
        if index = s.index ∧ x = u ∧ y = v then some col else shownAt screens index x y) ∧
      (¬ CubeApplication.OnPanel u v → screens' = screens) := by
  refine ⟨_, CubeApplication.setPixel3D_getPointOnScreen h unset hs u v col, ?_⟩
  split
  · rename_i hpanel
    refine ⟨CubeApplication.sixPanels_modify h _ u v col, fun index x y hindex hin => ?_,
      fun hoff => absurd hpanel hoff⟩
    exact CubeApplication.shownAt_modify h hpanel col hindex hin
  · rename_i hoff
    refine ⟨h, fun index x y hindex hin => ?_, fun _ => rfl⟩
    have hother : ¬ (index = s.index ∧ x = u ∧ y = v) := by
      rintro ⟨-, rfl, rfl⟩
      exact hoff hin
    rw [if_neg hother]

/-- Six black panels. -/
def blackPanels : List Screen :=
  (List.range 6).map fun id => {
    screenId := id
    width := 64
    height := 64
    screenDataSize := 4096
    screenData := List.replicate 4096 .black }

theorem sixPanels_blackPanels : SixPanels blackPanels := by
  have hall : ∀ s ∈ blackPanels, s.Full ∧ s.width = 64 ∧ s.height = 64 := fun s hs => by
    obtain ⟨id, -, rfl⟩ := List.mem_map.mp hs
    exact ⟨⟨(by decide : (0 : Int) ≤ 64 * 64), rfl, List.length_replicate⟩, rfl, rfl⟩
  exact ⟨rfl, fun s hs => (hall s hs).1, fun s hs => (hall s hs).2.1, fun s hs => (hall s hs).2.2⟩

theorem left_face_drawing_clipped :
    ∃ screens', CubeApplication.setPixel3D blackPanels
        (CubeApplication.getPointOnScreen ![0, 0, 0] .left ![-1, 5]) ⟨255, 0, 0⟩ none false =
          some screens' ∧ screens' = blackPanels := by
  obtain ⟨screens', hset, -, -, hoff⟩ := face_drawing_clipped ![0, 0, 0] blackPanels
    sixPanels_blackPanels .left (by decide) (-1) 5 ⟨255, 0, 0⟩
  exact ⟨screens', hset, hoff (by decide)⟩

end MatrixServer
