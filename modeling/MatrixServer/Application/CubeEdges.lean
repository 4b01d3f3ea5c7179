import MatrixServer.Application.CubeRandomPoints

/-!
Surface, edges and corners.
The functions that tell them apart compare coordinates with the two borders of the virtual
cube. Drawing agrees with them: a point lights an LED when it lies on the surface and on no edge,
the LED being one of the panel that the point is told to be on.
-/

namespace MatrixServer
namespace CubeApplication

/-- The coordinate of one of two opposite faces. -/
def OnBorder (value : Int) : Prop := value = 0 ∨ value = VIRTUALCUBEMAXINDEX

/-- The point that `setPixel3D` draws in place of another one. -/
def clamped (p : Vector3i) : Vector3i := fun axis => clamp (p axis)

/-- The plane of a face. -/
def InPlane (x y z : Int) : ScreenNumber → Prop
  | .front => y = 0
  | .right => x = VIRTUALCUBEMAXINDEX
  | .back => y = VIRTUALCUBEMAXINDEX
  | .left => x = 0
  | .top => z = 0
  | .bottom => z = VIRTUALCUBEMAXINDEX
  | .anyScreen => True

end CubeApplication

/-- The faces that an edge is named after. -/
def EdgeNumber.faces : EdgeNumber → List ScreenNumber
  | .frontRight => [.front, .right]
  | .rightBack => [.right, .back]
  | .backLeft => [.back, .left]
  | .leftFront => [.left, .front]
  | .topFront => [.top, .front]
  | .topRight => [.top, .right]
  | .topBack => [.top, .back]
  | .topLeft => [.top, .left]
  | .bottomFront => [.bottom, .front]
  | .bottomRight => [.bottom, .right]
  | .bottomBack => [.bottom, .back]
  | .bottomLeft => [.bottom, .left]
  | .anyEdge => []

def CornerNumber.faces : CornerNumber → List ScreenNumber
  | .frontRightTop => [.front, .right, .top]
  | .rightBackTop => [.right, .back, .top]
  | .backLeftTop => [.back, .left, .top]
  | .leftFrontTop => [.left, .front, .top]
  | .frontRightBottom => [.front, .right, .bottom]
  | .rightBackBottom => [.right, .back, .bottom]
  | .backLeftBottom => [.back, .left, .bottom]
  | .leftFrontBottom => [.left, .front, .bottom]
  | .anyCorner => []

namespace CubeApplication
variable (p : Vector3i)

theorem border_cases (value : Int) : value = 0 ∨ value = 65 ∨ value ≠ 0 ∧ value ≠ 65 := by
  omega

theorem isOnSurface_iff :
    isOnSurface p = true ↔ OnBorder (p 0) ∨ OnBorder (p 1) ∨ OnBorder (p 2) := by
  obtain hx | hx | hx := border_cases (p 0) <;> obtain hy | hy | hy := border_cases (p 1) <;>
    obtain hz | hz | hz := border_cases (p 2) <;>
    simp [isOnSurface, getScreenNumber, OnBorder, VIRTUALCUBEMAXINDEX, hx, hy, hz]

theorem isOnEdge_iff : isOnEdge p = true ↔ (OnBorder (p 0) ∧ OnBorder (p 1)) ∨
    (OnBorder (p 1) ∧ OnBorder (p 2)) ∨ (OnBorder (p 0) ∧ OnBorder (p 2)) := by
  obtain hx | hx | hx := border_cases (p 0) <;> obtain hy | hy | hy := border_cases (p 1) <;>
    obtain hz | hz | hz := border_cases (p 2) <;>
    simp [isOnEdge, getEdgeNumber, OnBorder, VIRTUALCUBEMAXINDEX, hx, hy, hz]

theorem isOnCorner_iff :
    isOnCorner p = true ↔ OnBorder (p 0) ∧ OnBorder (p 1) ∧ OnBorder (p 2) := by
  obtain hx | hx | hx := border_cases (p 0) <;> obtain hy | hy | hy := border_cases (p 1) <;>
    obtain hz | hz | hz := border_cases (p 2) <;>
    simp [isOnCorner, getCornerNumber, OnBorder, VIRTUALCUBEMAXINDEX, hx, hy, hz]

section
variable {p} {c : Prop} [Decidable c]

theorem edge_ite {edge edge' : EdgeNumber} (h : c → ∀ s ∈ edge.faces, InPlane (p 0) (p 1) (p 2) s)
    (h' : ∀ s ∈ edge'.faces, InPlane (p 0) (p 1) (p 2) s) :
    ∀ s ∈ (if c then edge else edge').faces, InPlane (p 0) (p 1) (p 2) s := by
  split
  · exact h ‹c›
  · exact h'

theorem corner_ite {corner corner' : CornerNumber}
    (h : c → ∀ s ∈ corner.faces, InPlane (p 0) (p 1) (p 2) s)
    (h' : ∀ s ∈ corner'.faces, InPlane (p 0) (p 1) (p 2) s) :
    ∀ s ∈ (if c then corner else corner').faces, InPlane (p 0) (p 1) (p 2) s := by
  split
  · exact h ‹c›
  · exact h'

end

/-- An edge lies in the planes of the faces that it is named after. -/
theorem getEdgeNumber_faces : ∀ s ∈ (getEdgeNumber p).faces, InPlane (p 0) (p 1) (p 2) s := by
  rw [getEdgeNumber]
  repeat' refine edge_ite (fun h => ?_) ?_
  all_goals simp [EdgeNumber.faces, InPlane, *]

theorem getCornerNumber_faces : ∀ s ∈ (getCornerNumber p).faces, InPlane (p 0) (p 1) (p 2) s := by
  simp only [getCornerNumber]
  repeat' refine corner_ite (fun h => ?_) ?_
  all_goals simp [CornerNumber.faces, InPlane, *]

theorem inCube_clamped : InCube (clamped p) := by
  intro axis
  have hclamp := clamp_cases (p axis)
  simp only [clamped, VIRTUALCUBEMAXINDEX]
  omega

variable {p}

/-- A pixel drawn is the one that `getPointOnScreen` names on the face the point is told to be
on. -/
theorem pixel_of_claim {index : Nat} {u v : Int}
    (hclaim : claimedBy (p 0) (p 1) (p 2) = some (index, u, v)) (hon : OnPanel u v) :
    index = (getScreenNumber p).index ∧ getScreenNumber p ≠ .anyScreen ∧
      ∀ unset, p = getPointOnScreen unset (getScreenNumber p) ![u, v] := by
  simp only [OnPanel, CUBESIZE] at hon
  have haxes : ∀ q : Vector3i, p 0 = q 0 → p 1 = q 1 → p 2 = q 2 → p = q := fun q hx hy hz =>
    funext (Fin.forall_fin_succ.mpr ⟨hx, Fin.forall_fin_two.mpr ⟨hy, hz⟩⟩)
  have hnumber : ∀ s : ScreenNumber, getScreenNumber p = s → s ≠ .anyScreen → index = s.index →
      (∀ unset, p = getPointOnScreen unset s ![u, v]) →
      index = (getScreenNumber p).index ∧ getScreenNumber p ≠ .anyScreen ∧
        ∀ unset, p = getPointOnScreen unset (getScreenNumber p) ![u, v] := by
    intro s hs hne hindex hpoint
    rw [hs]
    exact ⟨hindex, hne, hpoint⟩
  have hback : ∀ value : Int, 65 - (65 - value - 1 + 1) = value := by omega
  cases claimCase hclaim with
  | front hy =>
      refine hnumber .front ?_ (by decide) rfl fun unset => haxes _ ?_ hy ?_
      · simp only [getScreenNumber, VIRTUALCUBEMAXINDEX]
        simp (disch := omega) only [if_neg, if_pos]
      · simp [getPointOnScreen]
      · simp [getPointOnScreen]
  | right hy hx =>
      refine hnumber .right ?_ (by decide) rfl fun unset => haxes _ hx ?_ ?_
      · simp only [getScreenNumber, VIRTUALCUBEMAXINDEX]
        simp (disch := omega) only [if_neg, if_pos]
      · simp [getPointOnScreen]
      · simp [getPointOnScreen]
  | back hx hy =>
      refine hnumber .back ?_ (by decide) rfl fun unset => haxes _ ?_ hy ?_
      · simp only [getScreenNumber, VIRTUALCUBEMAXINDEX]
        simp (disch := omega) only [if_neg, if_pos]
      · exact (hback _).symm
      · simp [getPointOnScreen]
  | left hy hy' hx =>
      refine hnumber .left ?_ (by decide) rfl fun unset => haxes _ hx ?_ ?_
      · simp only [getScreenNumber, VIRTUALCUBEMAXINDEX]
        simp (disch := omega) only [if_pos]
      · exact (hback _).symm
      · simp [getPointOnScreen]
  | top hy hx hy' hx' hz =>
      refine hnumber .top ?_ (by decide) rfl fun unset => haxes _ ?_ ?_ hz
      · simp only [getScreenNumber, VIRTUALCUBEMAXINDEX]
        simp (disch := omega) only [if_neg, if_pos]
      · simp [getPointOnScreen]
      · exact (hback _).symm
  | bottom hy hx hy' hx' hz =>
      refine hnumber .bottom ?_ (by decide) rfl fun unset => haxes _ ?_ ?_ hz
      · simp only [getScreenNumber, VIRTUALCUBEMAXINDEX]
        simp (disch := omega) only [if_neg]
        exact if_pos hz
      · simp [getPointOnScreen]
      · simp [getPointOnScreen]

/-- On the surface and off the edges some pixel claims the point. -/
theorem claim_of_surface (hin : InCube p) (hsurface : isOnSurface p = true)
    (hedge : isOnEdge p = false) :
    ∃ index u v, claimedBy (p 0) (p 1) (p 2) = some (index, u, v) ∧ OnPanel u v := by
  rw [isOnSurface_iff] at hsurface
  rw [← Bool.not_eq_true, isOnEdge_iff] at hedge
  obtain ⟨hx, hy, hz⟩ := (inCube_iff p).mp hin
  simp only [OnBorder, VIRTUALCUBEMAXINDEX] at hsurface hedge
  cases hclaim : claimedBy (p 0) (p 1) (p 2) with
  | none =>
      cases claimCase hclaim with
      | inner => omega
  | some claim =>
      obtain ⟨index, u, v⟩ := claim
      refine ⟨index, u, v, rfl, ?_⟩
      simp only [OnPanel, CUBESIZE]
      cases claimCase hclaim with
      | front | right | back | left | top | bottom => omega

theorem surface_of_claim {index : Nat} {u v : Int}
    (hclaim : claimedBy (p 0) (p 1) (p 2) = some (index, u, v)) (hon : OnPanel u v) :
    isOnSurface p = true ∧ isOnEdge p = false := by
  rw [isOnSurface_iff, ← Bool.not_eq_true, isOnEdge_iff]
  simp only [OnPanel, CUBESIZE] at hon
  simp only [OnBorder, VIRTUALCUBEMAXINDEX]
  cases claimCase hclaim with
  | front | right | back | left | top | bottom => omega

end CubeApplication
open CubeApplication

/-- Surface, edges and corners are where one, two and three coordinates are on a border; edges and
corners lie on the faces they are named after. Drawing a point lights an LED exactly when the
point, moved into the cube, is on the surface and on no edge, and then the LED of that face and
pixel that `getScreenNumber` and `getPointOnScreen` give the point. -/
theorem voxel_classes (p : Vector3i) :
    (isOnSurface p = true ↔ ∃ i, OnBorder (p i)) ∧
      (isOnEdge p = true ↔ ∃ i j, i ≠ j ∧ OnBorder (p i) ∧ OnBorder (p j)) ∧
      (isOnCorner p = true ↔ ∀ i, OnBorder (p i)) ∧
      (∀ s ∈ (getEdgeNumber p).faces ++ (getCornerNumber p).faces,
        InPlane (p 0) (p 1) (p 2) s) ∧
      ((∃ index u v, StoresInto p index u v) ↔
        isOnSurface (clamped p) = true ∧ isOnEdge (clamped p) = false) ∧
      ∀ index u v, StoresInto p index u v →
        index = (getScreenNumber (clamped p)).index ∧
          PixelOf (getScreenNumber (clamped p)) u v (clamped p) := by
  have hclamped : ∀ index u v, StoresInto p index u v ↔
      claimedBy (clamped p 0) (clamped p 1) (clamped p 2) = some (index, u, v) ∧ OnPanel u v :=
    storesInto_iff p
  refine ⟨?_, ?_, ?_, ?_, ?_, ?_⟩
  · rw [isOnSurface_iff, Fin.exists_fin_succ, Fin.exists_fin_two]
    rfl
  · rw [isOnEdge_iff]
    constructor
    · intro h
      obtain h | h | h := h
      · exact ⟨0, 1, by decide, h⟩
      · exact ⟨1, 2, by decide, h⟩
      · exact ⟨0, 2, by decide, h⟩
    · intro h
      obtain ⟨i, j, hne, hi, hj⟩ := h
      have haxis : ∀ axis : Fin 3, axis = 0 ∨ axis = 1 ∨ axis = 2 := by decide
      obtain rfl | rfl | rfl := haxis i <;> obtain rfl | rfl | rfl := haxis j <;> grind
  · rw [isOnCorner_iff, Fin.forall_fin_succ, Fin.forall_fin_two]
    rfl
  · intro s hs
    cases List.mem_append.mp hs with
    | inl hedge => exact getEdgeNumber_faces p s hedge
    | inr hcorner => exact getCornerNumber_faces p s hcorner
  · constructor
    · intro h
      obtain ⟨index, u, v, hstores⟩ := h
      obtain ⟨hclaim, hon⟩ := (hclamped index u v).mp hstores
      exact surface_of_claim hclaim hon
    · intro h
      obtain ⟨index, u, v, hclaim, hon⟩ := claim_of_surface (inCube_clamped p) h.1 h.2
      exact ⟨index, u, v, (hclamped index u v).mpr ⟨hclaim, hon⟩⟩
  · intro index u v hstores
    obtain ⟨hclaim, hon⟩ := (hclamped index u v).mp hstores
    obtain ⟨hindex, hface, hpoint⟩ := pixel_of_claim hclaim hon
    exact ⟨hindex, pixelOf hface hon hpoint⟩

end MatrixServer
