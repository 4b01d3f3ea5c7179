import MatrixServer.Application.CubeVoxels
import MatrixServer.Foundation.InkLayers

/-!
What the drawing calls leave on the panels.
A call lays ink over the panel of its face, and a later one over that of an earlier one. Points
of space that are plotted light the pixels that claim them.
-/

namespace MatrixServer
namespace CubeApplication
open InkLayers Matrix

/-- The layer lies over the panel of the face, and the other panels are as before. -/
structure LaidOver (s : ScreenNumber) (layer : Layer (Int × Int) Color)
    (screens screens' : List Screen) : Prop where
  panels : SixPanels screens'
  shown : ∀ index x y, index < 6 → OnPanel x y → shownAt screens' index x y =
    if index = s.index then (layer (x, y)).or (shownAt screens index x y)
    else shownAt screens index x y

/-- What a drawing call does on a face. -/
def Draws (draw : List Screen → Option (List Screen)) (s : ScreenNumber)
    (layer : Layer (Int × Int) Color) : Prop :=
  ∀ screens, SixPanels screens → ∃ screens', draw screens = some screens' ∧
    LaidOver s layer screens screens'

variable {s : ScreenNumber}

theorem index_lt (hs : s ≠ .anyScreen) : s.index < 6 := by
  cases s with
  | anyScreen => exact absurd rfl hs
  | front | right | back | left | top | bottom => exact of_decide_eq_true rfl

theorem draws_nothing (s : ScreenNumber) : Draws some s fun _ => none := by
  intro screens h
  refine ⟨screens, rfl, h, ?_⟩
  intro index x y _ _
  rw [Option.none_or, ite_self]

/-- A later call draws over an earlier one. -/
theorem Draws.andThen {draw draw' : List Screen → Option (List Screen)}
    {layer layer' : Layer (Int × Int) Color} (h : Draws draw s layer)
    (h' : Draws draw' s layer') :
    Draws (fun screens => (draw screens).bind draw') s (overlay layer' layer) := by
  intro screens hpanels
  obtain ⟨screens₁, hdraw, hfirst⟩ := h screens hpanels
  obtain ⟨screens₂, hdraw', hsecond⟩ := h' screens₁ hfirst.panels
  refine ⟨screens₂, ?_, hsecond.panels, ?_⟩
  · simp only [hdraw, Option.bind_some, hdraw']
  · intro index x y hindex hon
    rw [hsecond.shown index x y hindex hon, hfirst.shown index x y hindex hon]
    split
    · rw [overlay, Option.or_assoc]
    · rfl

/-- Beside the panel a layer does not show. -/
theorem Draws.congr {draw : List Screen → Option (List Screen)}
    {layer layer' : Layer (Int × Int) Color} (h : Draws draw s layer)
    (hsame : ∀ x y, OnPanel x y → layer (x, y) = layer' (x, y)) : Draws draw s layer' := by
  intro screens hpanels
  obtain ⟨screens', hdraw, hlaid⟩ := h screens hpanels
  refine ⟨screens', hdraw, hlaid.panels, ?_⟩
  intro index x y hindex hon
  rw [hlaid.shown index x y hindex hon, hsame x y hon]

/-- On black panels what a call draws shows what its layers are. -/
theorem Draws.agree {draw : List Screen → Option (List Screen)}
    {layer layer' : Layer (Int × Int) Color} (h : Draws draw s layer) (h' : Draws draw s layer')
    (hs : s ≠ .anyScreen) {x y : Int} (hon : OnPanel x y) :
    (layer (x, y)).or (some .black) = (layer' (x, y)).or (some .black) := by
  obtain ⟨screens, hdraw, hlaid⟩ := h blackPanels sixPanels_blackPanels
  obtain ⟨screens', hdraw', hlaid'⟩ := h' blackPanels sixPanels_blackPanels
  cases hdraw.symm.trans hdraw'
  have hindex := index_lt hs
  have hpixel := hlaid.shown s.index x y hindex hon
  have hpixel' := hlaid'.shown s.index x y hindex hon
  rw [if_pos rfl, shownAt_blackPanels hindex] at hpixel hpixel'
  exact hpixel.symm.trans hpixel'

/-- One point of the plane, on the panel or beside it. -/
theorem draws_point (unset : Vector3i) (hs : s ≠ .anyScreen) (u v : Int) (col : Color) :
    Draws (fun screens => setPixel3D screens (getPointOnScreen unset s ![u, v]) col none false) s
      (ink col fun p => p = (u, v)) := by
  intro screens h
  refine ⟨_, setPixel3D_getPointOnScreen h unset hs u v col, ?_, ?_⟩
  · split
    · exact sixPanels_modify h s.index u v col
    · exact h
  · intro index x y hindex hon
    split
    · rename_i hpanel
      rw [shownAt_modify h hpanel col hindex hon]
      by_cases hface : index = s.index <;> by_cases hpoint : x = u ∧ y = v <;>
        simp [ink, hface, hpoint]
    · rename_i hbeside
      have hother : (x, y) ≠ (u, v) := by
        intro hpoint
        cases hpoint
        exact hbeside hon
      rw [ink, if_neg hother, Option.none_or, ite_self]

/-- The points that a list of points of the plane goes through. -/
def Through (points : List Vector2i) (p : Int × Int) : Prop :=
  ∃ point ∈ points, ∀ axis, point axis = ![p.1, p.2] axis

instance (points : List Vector2i) (p : Int × Int) : Decidable (Through points p) :=
  inferInstanceAs (Decidable (∃ point ∈ points, ∀ _, point _ = _))

theorem point_iff (point : Vector2i) (p : Int × Int) :
    (∀ axis, point axis = ![p.1, p.2] axis) ↔ p = (point 0, point 1) := by
  rw [Fin.forall_fin_two, Prod.ext_iff]
  exact and_congr eq_comm eq_comm

theorem through_cons {point : Vector2i} {points : List Vector2i} (p : Int × Int) :
    Through points p ∨ p = (point 0, point 1) ↔ Through (point :: points) p := by
  rw [or_comm, ← point_iff, Through, Through, List.exists_mem_cons_iff]

theorem point_eta (point : Vector2i) : ![point 0, point 1] = point :=
  funext (Fin.forall_fin_two.mpr ⟨rfl, rfl⟩)

theorem draws_plot (unset : Vector3i) (hs : s ≠ .anyScreen) (points : List Vector2i)
    (col : Color) :
    Draws (fun screens => plot screens (points.map (getPointOnScreen unset s)) col) s
      (ink col (Through points)) := by
  induction points with
  | nil =>
      rw [ink_nowhere col fun p hp => List.not_mem_nil hp.choose_spec.1]
      exact draws_nothing s
  | cons point points ih =>
      have hpoint := draws_point unset hs (point 0) (point 1) col
      rw [point_eta] at hpoint
      have hboth := hpoint.andThen ih
      rw [overlay_ink, ink_congr col through_cons] at hboth
      exact hboth

/-- The pixel that a point is drawn on, by its three coordinates. -/
def ledOf (p : Vector3i) : Option (Nat × Int × Int) :=
  writeClaim (vecHead p) (vecHead (vecTail p)) (vecHead (vecTail (vecTail p)))

theorem ledOf_eq (p : Vector3i) : ledOf p = writeClaim (p 0) (p 1) (p 2) := rfl

/-- Some point of the list is drawn on this pixel. -/
def Lights (points : List Vector3i) (index : Nat) (u v : Int) : Prop :=
  ∃ p ∈ points, ledOf p = some (index, u, v)

instance (points : List Vector3i) (index : Nat) (u v : Int) : Decidable (Lights points index u v) :=
  inferInstanceAs (Decidable (∃ p ∈ points, _))

theorem lights_cons {p : Vector3i} {points : List Vector3i} (index : Nat) (u v : Int) :
    Lights (p :: points) index u v ↔
      writeClaim (p 0) (p 1) (p 2) = some (index, u, v) ∨ Lights points index u v := by
  rw [Lights, Lights, List.exists_mem_cons_iff, ledOf_eq]

/-- Plotted points light the pixels that claim one of them and no other ones. -/
theorem plot_shown {screens : List Screen} (h : SixPanels screens) (points : List Vector3i)
    (col : Color) : ∃ screens', plot screens points col = some screens' ∧ SixPanels screens' ∧
      ∀ index u v, index < 6 → OnPanel u v → shownAt screens' index u v =
        if Lights points index u v then some col else shownAt screens index u v := by
  induction points generalizing screens with
  | nil =>
      refine ⟨screens, rfl, h, ?_⟩
      intro index u v _ _
      rw [if_neg fun hlit => List.not_mem_nil hlit.choose_spec.1]
  | cons p points ih =>
      obtain ⟨screens₁, hset, hpanels, hpixels⟩ := setPixel3D_shown h p col
      obtain ⟨screens₂, hplot, hpanels', hrest⟩ := ih hpanels
      refine ⟨screens₂, ?_, hpanels', ?_⟩
      · rw [plot, List.foldlM_cons, hset]
        exact hplot
      · intro index u v hindex hon
        rw [hrest index u v hindex hon, hpixels index u v hindex hon]
        by_cases hclaim : writeClaim (p 0) (p 1) (p 2) = some (index, u, v) <;>
          simp only [lights_cons, hclaim, true_or, false_or, if_true, if_false, ite_self]

/-- Filling lights every pixel of the six panels. -/
theorem fillAll_shown {screens : List Screen} (h : SixPanels screens) (col : Color) :
    SixPanels (fillAll screens col) ∧ ∀ index u v, index < 6 → OnPanel u v →
      shownAt (fillAll screens col) index u v = some col := by
  refine ⟨⟨?_, ?_, ?_, ?_⟩, ?_⟩
  · rw [fillAll, List.length_map]
    exact h.count
  · intro s hs
    obtain ⟨old, hold, rfl⟩ := List.mem_map.mp hs
    exact ⟨(h.full old hold).nonneg, (h.full old hold).size,
      (List.length_map _).trans (h.full old hold).length⟩
  · intro s hs
    obtain ⟨old, hold, rfl⟩ := List.mem_map.mp hs
    exact h.width old hold
  · intro s hs
    obtain ⟨old, hold, rfl⟩ := List.mem_map.mp hs
    exact h.height old hold
  · intro index u v hindex hon
    have hlt : index < screens.length := by rw [h.count]; exact hindex
    have hmem := List.getElem_mem hlt
    have hin : screens[index].Contains u v := (contains_iff_onPanel h hmem u v).mpr hon
    rw [shownAt, fillAll, List.getElem?_map, List.getElem?_eq_getElem hlt, Option.map_some,
      Option.bind_some, Screen.getPixel]
    have hin' : (screens[index].fill col).Contains u v := hin
    rw [if_pos hin']
    simp only [Screen.fill, Screen.fillRgb, List.getElem?_map]
    have hdata : (screens[index].getArrayIndex u v).toNat < screens[index].screenData.length :=
      (h.full _ hmem).index_lt_length hin
    exact congrArg (Option.map _) (List.getElem?_eq_getElem hdata)

theorem clear_shown {screens : List Screen} (h : SixPanels screens) :
    SixPanels (clear screens) ∧ ∀ index u v, index < 6 → OnPanel u v →
      shownAt (clear screens) index u v = some .black := by
  have hblack : clear screens = fillAll screens .black := rfl
  rw [hblack]
  exact fillAll_shown h .black

end CubeApplication
end MatrixServer
