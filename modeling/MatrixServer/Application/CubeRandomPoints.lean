import MatrixServer.Application.CubeVoxels

/-!
Random points.
`rand() % VIRTUALCUBEMAXINDEX` reaches from 0 to 64, the pixels of a panel lie from 1 to 64.
A coordinate of 0 is a place on an edge of the cube, which belongs to no panel.
-/

namespace MatrixServer
namespace CubeApplication

/-- A pixel of a face: its point is told to be on that face, and setting it lights its LED. -/
structure PixelOf (t : ScreenNumber) (u v : Int) (p : Vector3i) : Prop where
  onPanel : OnPanel u v
  point : ∀ unset, p = getPointOnScreen unset t ![u, v]
  number : getScreenNumber p = t
  lights : StoresInto p t.index u v

/-- A visible point of the requested face, which is any face for `anyScreen`. -/
def VisibleOn (s : ScreenNumber) (p : Vector3i) : Prop :=
  ∃ t u v, t ≠ .anyScreen ∧ (s ≠ .anyScreen → t = s) ∧ PixelOf t u v p

/-- The number of calls of `rand()` that choose the face. -/
def faceDraws (s : ScreenNumber) : Nat := if s = .anyScreen then 1 else 0

/-- The face that the point is on. -/
def chosenFace (rand : Nat → Nat) (s : ScreenNumber) : ScreenNumber :=
  if s = .anyScreen then ScreenNumber.ofNumber (rand 0 % 6) else s

/-- The point of a face with these two coordinates. -/
def voxelOn (t : ScreenNumber) (first second : Int) : Vector3i :=
  match t with
  | .anyScreen => ![first, 0, second]
  | .front => ![first, 0, second]
  | .right => ![VIRTUALCUBEMAXINDEX, first, second]
  | .back => ![first, VIRTUALCUBEMAXINDEX, second]
  | .left => ![0, first, second]
  | .top => ![first, second, 0]
  | .bottom => ![first, second, VIRTUALCUBEMAXINDEX]

theorem ofNumber_ne {number : Nat} (h : number < 6) :
    ScreenNumber.ofNumber number ≠ .anyScreen := by
  revert number
  decide

theorem chosenFace_ne (rand : Nat → Nat) (s : ScreenNumber) : chosenFace rand s ≠ .anyScreen := by
  rw [chosenFace]
  split
  · exact ofNumber_ne (Nat.mod_lt _ (by omega))
  · assumption

/-- The two coordinates are the numbers that follow those for the face, in either order. -/
theorem getRandomPointOnScreen_eq (lastFirst : Bool) (rand : Nat → Nat) (s : ScreenNumber) :
    getRandomPointOnScreen lastFirst rand s = voxelOn (chosenFace rand s)
      (rand (if lastFirst then faceDraws s + 1 else faceDraws s) % 65 : Nat)
      (rand (if lastFirst then faceDraws s else faceDraws s + 1) % 65 : Nat) := rfl

/-- Between the edges of the cube. -/
def Between (value : Int) : Prop := 0 < value ∧ value < VIRTUALCUBEMAXINDEX

/-- Of two coordinates of a point at least one lies between the edges. -/
def OffEdges (p : Vector3i) : Prop := ∀ i j, i ≠ j → Between (p i) ∨ Between (p j)

theorem offEdges_iff (p : Vector3i) : OffEdges p ↔ (Between (p 0) ∨ Between (p 1)) ∧
    (Between (p 0) ∨ Between (p 2)) ∧ (Between (p 1) ∨ Between (p 2)) := by
  constructor
  · intro h
    exact ⟨h 0 1 (by decide), h 0 2 (by decide), h 1 2 (by decide)⟩
  · intro h i j hne
    have haxis : ∀ axis : Fin 3, axis = 0 ∨ axis = 1 ∨ axis = 2 := by decide
    obtain rfl | rfl | rfl := haxis i <;> obtain rfl | rfl | rfl := haxis j <;> grind

theorem offEdges_getPointOnScreen (unset : Vector3i) {t : ScreenNumber} (ht : t ≠ .anyScreen)
    {u v : Int} (h : OnPanel u v) : OffEdges (getPointOnScreen unset t ![u, v]) := by
  simp only [OnPanel, CUBESIZE] at h
  rw [offEdges_iff]
  cases t with
  | anyScreen => exact absurd rfl ht
  | front | right | back | left | top | bottom =>
      simp only [Between, getPointOnScreen, Matrix.cons_val, VIRTUALCUBEMAXINDEX]
      omega

theorem between_of_offEdges {t : ScreenNumber} {first second : Int}
    (h : OffEdges (voxelOn t first second)) : Between first ∧ Between second := by
  rw [offEdges_iff] at h
  cases t with
  | front | right | back | left | top | bottom | anyScreen =>
      simp only [Between, voxelOn, Matrix.cons_val, VIRTUALCUBEMAXINDEX] at h ⊢
      omega

/-- With both coordinates between the edges the point is a pixel of the face. -/
theorem exists_pixel {t : ScreenNumber} (ht : t ≠ .anyScreen) {first second : Int}
    (h : Between first) (h' : Between second) :
    ∃ u v, OnPanel u v ∧ ∀ unset, voxelOn t first second = getPointOnScreen unset t ![u, v] := by
  simp only [Between, VIRTUALCUBEMAXINDEX] at h h'
  have hback : ∀ value : Int, value - 1 + 1 = value := fun value => Int.sub_add_cancel value 1
  have hmirror : ∀ value : Int, 65 - (64 - value + 1) = value := by omega
  cases t with
  | anyScreen => exact absurd rfl ht
  | front | right | bottom =>
      refine ⟨first - 1, second - 1, ?_, ?_⟩
      · simp only [OnPanel, CUBESIZE]
        omega
      · intro unset
        simp only [voxelOn, getPointOnScreen, Matrix.cons_val, hback]
  | back | left =>
      refine ⟨64 - first, second - 1, ?_, ?_⟩
      · simp only [OnPanel, CUBESIZE]
        omega
      · intro unset
        simp only [voxelOn, getPointOnScreen, Matrix.cons_val, VIRTUALCUBEMAXINDEX, hback, hmirror]
  | top =>
      refine ⟨first - 1, 64 - second, ?_, ?_⟩
      · simp only [OnPanel, CUBESIZE]
        omega
      · intro unset
        simp only [voxelOn, getPointOnScreen, Matrix.cons_val, VIRTUALCUBEMAXINDEX, hback, hmirror]

theorem getScreenNumber_getPointOnScreen (unset : Vector3i) {t : ScreenNumber}
    (ht : t ≠ .anyScreen) {u v : Int} (h : OnPanel u v) :
    getScreenNumber (getPointOnScreen unset t ![u, v]) = t := by
  simp only [OnPanel, CUBESIZE] at h
  cases t with
  | anyScreen => exact absurd rfl ht
  | front | right | back | left | top | bottom =>
      simp only [getScreenNumber, getPointOnScreen, Matrix.cons_val, VIRTUALCUBEMAXINDEX]
      simp (disch := omega) only [if_neg, ite_true]

theorem storesInto_getPointOnScreen (unset : Vector3i) {t : ScreenNumber} (ht : t ≠ .anyScreen)
    {u v : Int} (h : OnPanel u v) :
    StoresInto (getPointOnScreen unset t ![u, v]) t.index u v := by
  obtain ⟨index, x, y, hclaim, -, hon, -⟩ := claimedBy_getPointOnScreen unset ht u v
  obtain ⟨rfl, rfl, rfl⟩ := hon h
  exact (storesInto_iff _ _ _ _).mpr ⟨hclaim, h⟩

theorem pixelOf {t : ScreenNumber} (ht : t ≠ .anyScreen) {u v : Int} (h : OnPanel u v)
    {p : Vector3i} (hp : ∀ unset, p = getPointOnScreen unset t ![u, v]) : PixelOf t u v p := by
  have hpoint := hp ![0, 0, 0]
  refine ⟨h, hp, ?_, ?_⟩
  · rw [hpoint, getScreenNumber_getPointOnScreen _ ht h]
  · rw [hpoint]
    exact storesInto_getPointOnScreen _ ht h

theorem visibleOn_voxelOn_iff {s t : ScreenNumber} (ht : t ≠ .anyScreen)
    (hs : s ≠ .anyScreen → t = s) (first second : Int) :
    VisibleOn s (voxelOn t first second) ↔ Between first ∧ Between second := by
  constructor
  · intro hvisible
    obtain ⟨t', u, v, ht', -, hpixel⟩ := hvisible
    apply between_of_offEdges
    rw [hpixel.point ![0, 0, 0]]
    exact offEdges_getPointOnScreen _ ht' hpixel.onPanel
  · intro hbetween
    obtain ⟨u, v, hon, hp⟩ := exists_pixel ht hbetween.1 hbetween.2
    exact ⟨t, u, v, ht, hs, pixelOf ht hon hp⟩

/-- A number of `rand()` makes a coordinate between the edges unless 65 divides it. -/
theorem between_mod_iff (number : Nat) : Between (number % 65 : Nat) ↔ number % 65 ≠ 0 := by
  simp only [Between, VIRTUALCUBEMAXINDEX]
  omega

end CubeApplication

/-- A random point is a visible point of the requested face exactly when neither of the two
numbers that its coordinates come from is a multiple of 65. -/
theorem getRandomPointOnScreen_visible_iff (lastFirst : Bool) (rand : Nat → Nat)
    (s : ScreenNumber) :
    CubeApplication.VisibleOn s (CubeApplication.getRandomPointOnScreen lastFirst rand s) ↔
      rand (CubeApplication.faceDraws s) % 65 ≠ 0 ∧
        rand (CubeApplication.faceDraws s + 1) % 65 ≠ 0 := by
  have hface : s ≠ .anyScreen → CubeApplication.chosenFace rand s = s := fun hs => if_neg hs
  rw [CubeApplication.getRandomPointOnScreen_eq, CubeApplication.visibleOn_voxelOn_iff
    (CubeApplication.chosenFace_ne rand s) hface, CubeApplication.between_mod_iff,
    CubeApplication.between_mod_iff]
  cases lastFirst with
  | false => exact Iff.rfl
  | true => exact And.comm

/-- With the numbers 0 and 4 the point for the front is (0, 0, 4), on the edge to the left face. -/
theorem random_point_on_edge :
    CubeApplication.getRandomPointOnScreen false (fun i => 4 * i) .front = ![0, 0, 4] ∧
      CubeApplication.getScreenNumber ![0, 0, 4] = .left ∧
      ¬ CubeApplication.VisibleOn .front ![0, 0, 4] := by
  refine ⟨rfl, rfl, ?_⟩
  intro hvisible
  have hbetween := (CubeApplication.visibleOn_voxelOn_iff (t := .front) (by decide)
    (fun _ => rfl) 0 4).mp hvisible
  exact absurd hbetween.1.1 (Int.lt_irrefl 0)

end MatrixServer
