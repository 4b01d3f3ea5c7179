import MatrixServer.Application.CubeDrawing
import MatrixServer.Foundation.RasterLine

/-!
The line algorithms of the cube.
Both follow the line of the nearest grid points: `drawLine3D` keeps the error of each axis
that does not drive, `drawLine2D` one error for both axes, half of the other's up to a shift.
-/

namespace MatrixServer
namespace CubeApplication
open InkLayers RasterLine

/-- The number of steps of a line between two points of the plane. -/
def length2D (x0 y0 x1 y1 : Int) : Nat := max (x1 - x0).natAbs (y1 - y0).natAbs

section
variable (x0 y0 x1 y1 : Int)

/-- The loop of `drawLine2D` after `i` turns. -/
def line2DState (i : Nat) : Line2D where
  x0 := x0 + along (length2D x0 y0 x1 y1) (x1 - x0) i
  y0 := y0 + along (length2D x0 y0 x1 y1) (y1 - y0) i
  err := (x1 - x0).natAbs * (nearest (length2D x0 y0 x1 y1) (y1 - y0).natAbs i + 1) -
    (y1 - y0).natAbs * (nearest (length2D x0 y0 x1 y1) (x1 - x0).natAbs i + 1)

end

/-- With one axis driving, the test for it always holds, and the test for the other one holds
just when its error is positive. -/
theorem combined_error {A B : Nat} (hA : 0 < A) (h : B ≤ A) (i : Nat) (err : Int)
    (herr : err = A * (nearest A B i + 1) - B * (i + 1)) :
    -B < 2 * err ∧ (2 * err < A ↔ error A B i > 0) := by
  obtain ⟨hlow, hhigh⟩ := nearest_spec hA B i
  simp only [herr, error, Int.mul_add, Int.mul_one]
  refine ⟨?_, by omega⟩
  cases Nat.lt_or_eq_of_le h with
  | inl hlt => omega
  | inr heq =>
      rw [heq, nearest_driving hA]
      omega

/-- The two tests of a turn ask for the errors of the two axes. -/
theorem tests_iff {A B M : Nat} (hM : 0 < M) (hmax : M = max A B) (i : Nat) {err : Int}
    (herr : err = A * (nearest M B i + 1) - B * (nearest M A i + 1)) :
    (2 * err > -B ↔ error M A i > 0) ∧ (2 * err < A ↔ error M B i > 0) := by
  cases Nat.le_total B A with
  | inl hle =>
      have hA : M = A := by omega
      subst hA
      rw [nearest_driving hM] at herr
      obtain ⟨hx, hy⟩ := combined_error hM hle i err herr
      exact ⟨iff_of_true hx (by rw [error_driving hM]; omega), hy⟩
  | inr hle =>
      have hB : M = B := by omega
      subst hB
      rw [nearest_driving hM] at herr
      obtain ⟨hy, hx⟩ := combined_error hM hle i (-err) (by omega)
      exact ⟨by omega, iff_of_true (by omega) (by rw [error_driving hM]; omega)⟩

/-- An axis that moves changes, so the step on it has the sign of the change. -/
theorem move_eq (M : Nat) (a b : Int) (i : Nat) :
    (if error M (b - a).natAbs i > 0 then if a < b then 1 else -1 else 0) =
      if error M (b - a).natAbs i > 0 then (b - a).sign else 0 := by
  split
  · rename_i hpos
    have hchange := ne_zero_of_error hpos
    split
    · exact (Int.sign_eq_one_of_pos (by omega)).symm
    · exact (Int.sign_eq_neg_one_of_neg (by omega)).symm
  · rfl

theorem Line2D.next_eq (dx dy sx sy : Int) (st : Line2D) : st.next dx dy sx sy =
    { x0 := st.x0 + if 2 * st.err > dy then sx else 0
      y0 := st.y0 + if 2 * st.err < dx then sy else 0
      err := st.err + (if 2 * st.err > dy then dy else 0) +
        if 2 * st.err < dx then dx else 0 } := by
  simp only [Line2D.next]
  split <;> split <;> simp

theorem line2DState_next (x0 y0 x1 y1 : Int) {i : Nat} (hi : i < length2D x0 y0 x1 y1) :
    (line2DState x0 y0 x1 y1 i).next (x1 - x0).natAbs (-(y1 - y0).natAbs)
        (if x0 < x1 then 1 else -1) (if y0 < y1 then 1 else -1) =
      line2DState x0 y0 x1 y1 (i + 1) := by
  have hx : (x1 - x0).natAbs ≤ length2D x0 y0 x1 y1 := Nat.le_max_left _ _
  have hy : (y1 - y0).natAbs ≤ length2D x0 y0 x1 y1 := Nat.le_max_right _ _
  obtain ⟨htestx, htesty⟩ := tests_iff (M := length2D x0 y0 x1 y1) (by omega) rfl i
    (rfl : (line2DState x0 y0 x1 y1 i).err = _)
  have herr : (line2DState x0 y0 x1 y1 (i + 1)).err = (line2DState x0 y0 x1 y1 i).err +
      (if error (length2D x0 y0 x1 y1) (x1 - x0).natAbs i > 0
        then -((y1 - y0).natAbs : Int) else 0) +
      if error (length2D x0 y0 x1 y1) (y1 - y0).natAbs i > 0
        then ((x1 - x0).natAbs : Int) else 0 := by
    simp only [line2DState, nearest_succ hx, nearest_succ hy]
    split <;> split <;>
      simp only [Int.natCast_add, Int.natCast_one, Int.mul_add, Nat.add_zero] <;> omega
  rw [Line2D.next_eq]
  simp only [htestx, htesty, move_eq]
  simp only [line2DState, Line2D.mk.injEq] at herr ⊢
  exact ⟨by rw [along_succ hx, Int.add_assoc], by rw [along_succ hy, Int.add_assoc], herr.symm⟩

theorem line2DState_done (x0 y0 x1 y1 : Int) {i : Nat} (hi : i ≤ length2D x0 y0 x1 y1) :
    ((line2DState x0 y0 x1 y1 i).x0 = x1 ∧ (line2DState x0 y0 x1 y1 i).y0 = y1) ↔
      i = length2D x0 y0 x1 y1 := by
  have hx : (x1 - x0).natAbs ≤ length2D x0 y0 x1 y1 := Nat.le_max_left _ _
  have hy : (y1 - y0).natAbs ≤ length2D x0 y0 x1 y1 := Nat.le_max_right _ _
  simp only [line2DState]
  constructor
  · rintro ⟨hendx, hendy⟩
    cases (by simp only [length2D]; omega : (x1 - x0).natAbs = length2D x0 y0 x1 y1 ∨
        (y1 - y0).natAbs = length2D x0 y0 x1 y1) with
    | inl hlong =>
        have hcount := natAbs_along_driving hlong hi
        omega
    | inr hlong =>
        have hcount := natAbs_along_driving hlong hi
        omega
  · rintro rfl
    rw [along_all hx, along_all hy]
    omega

/-- The points of the plane that a line goes through. -/
def line2D (x0 y0 x1 y1 : Int) : List Vector2i :=
  line (length2D x0 y0 x1 y1) ![x0, y0] ![x1, y1]

/-- `drawLine2D` follows the line of the nearest points, and ends after its last one. -/
theorem line2DPoints_eq (fuel : Nat) (x0 y0 x1 y1 : Int) : line2DPoints fuel x0 y0 x1 y1 =
    if length2D x0 y0 x1 y1 < fuel then some (line2D x0 y0 x1 y1) else none := by
  have hstart : line2DState x0 y0 x1 y1 0 =
      { x0, y0, err := (x1 - x0).natAbs + -((y1 - y0).natAbs : Int) } := by
    simp only [line2DState, along_zero, nearest_zero, Line2D.mk.injEq]
    omega
  have hpoint : pointAt (length2D x0 y0 x1 y1) ![x0, y0] ![x1, y1] =
      fun i => ![(line2DState x0 y0 x1 y1 i).x0, (line2DState x0 y0 x1 y1 i).y0] := by
    funext i
    exact funext (Fin.forall_fin_two.mpr ⟨rfl, rfl⟩)
  rw [line2DPoints, line2DLoop, ← hstart, PlotLoops.untilLoop_run (length2D x0 y0 x1 y1)
    (line2DState x0 y0 x1 y1) (fun i hi => line2DState_next x0 y0 x1 y1 hi)]
  · simp only [line2D, line, hpoint]
  · intro i hi
    rw [decide_eq_false_iff_not, line2DState_done x0 y0 x1 y1 (Nat.le_of_lt hi)]
    exact Nat.ne_of_lt hi
  · rw [decide_eq_true_eq, line2DState_done x0 y0 x1 y1 (Nat.le_refl _)]

/-- `drawLine2D` lays ink over the points of the line, on the panel of its face. -/
theorem draws_line2D {fuel : Nat} (unset : Vector3i) {s : ScreenNumber} (hs : s ≠ .anyScreen)
    {x0 y0 x1 y1 : Int} (hfuel : length2D x0 y0 x1 y1 < fuel) (col : Color) :
    Draws (fun screens => drawLine2D fuel unset screens s x0 y0 x1 y1 col) s
      (ink col (Through (line2D x0 y0 x1 y1))) := by
  have hpoints := line2DPoints_eq fuel x0 y0 x1 y1
  rw [if_pos hfuel] at hpoints
  simp only [drawLine2D, hpoints, Option.bind_some]
  exact draws_plot unset hs (line2D x0 y0 x1 y1) col

theorem natAbs_le_length3D (start stop : Vector3i) (axis : Fin 3) :
    (stop axis - start axis).natAbs ≤ length3D start stop := by
  revert axis
  refine Fin.forall_fin_succ.mpr ⟨?_, Fin.forall_fin_two.mpr ⟨?_, ?_⟩⟩
  · exact Nat.le_trans (Nat.le_max_left _ _) (Nat.le_max_left _ _)
  · exact Nat.le_trans (Nat.le_max_right _ _) (Nat.le_max_left _ _)
  · exact Nat.le_max_right _ _

/-- A loop of `drawLine3D` after `i` turns. -/
def line3DState (start stop : Vector3i) (first second : Fin 3) (i : Nat) : Line3D where
  point := pointAt (length3D start stop) start stop i
  err_1 := error (length3D start stop) (stop first - start first).natAbs i
  err_2 := error (length3D start stop) (stop second - start second).natAbs i

/-- The steps that `drawLine3D` takes on the axes. -/
def direction (start stop : Vector3i) : Vector3i :=
  fun axis => if stop axis - start axis < 0 then -1 else 1

/-- Twice the change on each axis. -/
def twice (start stop : Vector3i) : Vector3i :=
  fun axis => 2 * (stop axis - start axis).natAbs

/-- A turn moves on the driving axis, and on the others when their errors are positive. -/
theorem Line3D.next_eq (inc d2 : Vector3i) {driving first second : Fin 3}
    (hfirst : first ≠ driving) (hsecond : second ≠ driving) (hother : second ≠ first)
    (st : Line3D) : st.next inc d2 driving first second =
      { point := fun axis => st.point axis +
          if axis = driving ∨ axis = first ∧ st.err_1 > 0 ∨ axis = second ∧ st.err_2 > 0
            then inc axis else 0
        err_1 := (if st.err_1 > 0 then st.err_1 - d2 driving else st.err_1) + d2 first
        err_2 := (if st.err_2 > 0 then st.err_2 - d2 driving else st.err_2) + d2 second } := by
  simp only [Line3D.next]
  by_cases hmove : st.err_1 > 0 <;> by_cases hmove' : st.err_2 > 0 <;>
    simp only [hmove, hmove', if_true, if_false, Line3D.mk.injEq, and_true, and_false, or_false]
  all_goals
    funext axis
    simp only [Function.update_apply]
    grind

theorem direction_eq_sign {start stop : Vector3i} {axis : Fin 3}
    (h : stop axis - start axis ≠ 0) :
    direction start stop axis = (stop axis - start axis).sign := by
  simp only [direction]
  split
  · rename_i hneg
    exact (Int.sign_eq_neg_one_of_neg hneg).symm
  · exact (Int.sign_eq_one_of_pos (by omega)).symm

/-- The axes a loop of `drawLine3D` works with: the one it runs along has the most to go. -/
structure Driven (start stop : Vector3i) (driving first second : Fin 3) : Prop where
  longest : (stop driving - start driving).natAbs = length3D start stop
  first_ne : first ≠ driving
  second_ne : second ≠ driving
  other : second ≠ first
  all : ∀ axis, axis = driving ∨ axis = first ∨ axis = second

theorem line3DState_next {start stop : Vector3i} {driving first second : Fin 3}
    (h : Driven start stop driving first second) {i : Nat} (hi : i < length3D start stop) :
    (line3DState start stop first second i).next (direction start stop) (twice start stop)
        driving first second = line3DState start stop first second (i + 1) := by
  have hle := natAbs_le_length3D start stop
  have hmoves : ∀ axis, (axis = driving ∨
      axis = first ∧ error (length3D start stop) (stop first - start first).natAbs i > 0 ∨
      axis = second ∧ error (length3D start stop) (stop second - start second).natAbs i > 0) ↔
      error (length3D start stop) (stop axis - start axis).natAbs i > 0 := fun axis => by
    have hdriving := error_driving (M := length3D start stop) (by omega) i
    have hfirst := h.first_ne
    have hsecond := h.second_ne
    have hother := h.other
    obtain rfl | rfl | rfl := h.all axis
    · rw [h.longest, hdriving]
      exact iff_of_true (.inl rfl) (by omega)
    · grind
    · grind
  rw [Line3D.next_eq _ _ h.first_ne h.second_ne h.other]
  simp only [line3DState, Line3D.mk.injEq]
  refine ⟨?_, ?_, ?_⟩
  · funext axis
    simp only [hmoves, pointAt, along_succ (hle axis), ← Int.add_assoc]
    split
    · rename_i hpos
      rw [direction_eq_sign (ne_zero_of_error hpos)]
    · rfl
  · simp only [error_succ (hle first), twice, h.longest]
  · simp only [error_succ (hle second), twice, h.longest]

/-- The points of space that a line goes through. -/
def line3D (start stop : Vector3i) : List Vector3i := line (length3D start stop) start stop

theorem line3DLoop_eq {start stop : Vector3i} {driving first second : Fin 3}
    (h : Driven start stop driving first second) :
    line3DLoop (direction start stop) (twice start stop) driving first second
        (length3D start stop)
        { point := start
          err_1 := twice start stop first - length3D start stop
          err_2 := twice start stop second - length3D start stop } =
      line3D start stop := by
  have hstart : line3DState start stop first second 0 =
      { point := start
        err_1 := twice start stop first - length3D start stop
        err_2 := twice start stop second - length3D start stop } := by
    simp only [line3DState, pointAt_start, error_zero, twice]
  rw [← hstart, line3DLoop, PlotLoops.countLoop_run (length3D start stop)
    (line3DState start stop first second) fun i hi => line3DState_next h hi]
  rfl

/-- `drawLine3D` follows the line of the nearest points. -/
theorem line3DPoints_eq (start stop : Vector3i) :
    line3DPoints start stop = line3D start stop := by
  have htwice : ![2 * ((stop 0 - start 0).natAbs : Int), 2 * ((stop 1 - start 1).natAbs : Int),
      2 * ((stop 2 - start 2).natAbs : Int)] = twice start stop :=
    funext (Fin.forall_fin_succ.mpr ⟨rfl, Fin.forall_fin_two.mpr ⟨rfl, rfl⟩⟩)
  simp only [line3DPoints, Pi.sub_apply, htwice, Int.toNat_natCast]
  split
  · have hdriven : Driven start stop 0 1 2 :=
      ⟨by simp only [length3D]; omega, by decide, by decide, by decide, by decide⟩
    rw [hdriven.longest]
    exact line3DLoop_eq hdriven
  · split
    · have hdriven : Driven start stop 1 0 2 :=
        ⟨by simp only [length3D]; omega, by decide, by decide, by decide, by decide⟩
      rw [hdriven.longest]
      exact line3DLoop_eq hdriven
    · have hdriven : Driven start stop 2 1 0 :=
        ⟨by simp only [length3D]; omega, by decide, by decide, by decide, by decide⟩
      rw [hdriven.longest]
      exact line3DLoop_eq hdriven

theorem shift_out (u : Int) : VIRTUALCUBEMAXINDEX - (u + 1) = 64 - u := by
  simp only [VIRTUALCUBEMAXINDEX]
  omega

/-- A face shows the plane without turning or stretching it. -/
theorem axisParallel_getPointOnScreen (unset : Vector3i) {s : ScreenNumber}
    (hs : s ≠ .anyScreen) : AxisParallel (getPointOnScreen unset s) := by
  refine Fin.forall_fin_succ.mpr ⟨?_, Fin.forall_fin_two.mpr ⟨?_, ?_⟩⟩
  · cases s with
    | anyScreen => exact absurd rfl hs
    | front | top | bottom => exact .inr (.inl ⟨1, 0, fun _ => Int.add_comm _ _⟩)
    | back => exact .inr (.inr ⟨64, 0, fun _ => shift_out _⟩)
    | right | left => exact .inl ⟨_, fun _ => rfl⟩
  · cases s with
    | anyScreen => exact absurd rfl hs
    | front | back => exact .inl ⟨_, fun _ => rfl⟩
    | right => exact .inr (.inl ⟨1, 0, fun _ => Int.add_comm _ _⟩)
    | left => exact .inr (.inr ⟨64, 0, fun _ => shift_out _⟩)
    | top => exact .inr (.inr ⟨64, 1, fun _ => shift_out _⟩)
    | bottom => exact .inr (.inl ⟨1, 1, fun _ => Int.add_comm _ _⟩)
  · cases s with
    | anyScreen => exact absurd rfl hs
    | front | right | back | left => exact .inr (.inl ⟨1, 1, fun _ => Int.add_comm _ _⟩)
    | top | bottom => exact .inl ⟨_, fun _ => rfl⟩

theorem natAbs_shift (a b c : Int) : (a + c - (b + c)).natAbs = (a - b).natAbs := by
  rw [Int.add_sub_add_right]

theorem natAbs_mirror (a b c : Int) : (c - (a + 1) - (c - (b + 1))).natAbs = (a - b).natAbs := by
  omega

/-- A face shows each axis of the plane in its length. -/
theorem length3D_getPointOnScreen (unset : Vector3i) {s : ScreenNumber} (hs : s ≠ .anyScreen)
    (x0 y0 x1 y1 : Int) :
    length3D (getPointOnScreen unset s ![x0, y0]) (getPointOnScreen unset s ![x1, y1]) =
      length2D x0 y0 x1 y1 := by
  cases s with
  | anyScreen => exact absurd rfl hs
  | front | right | back | left | top | bottom =>
      simp only [length3D, length2D, getPointOnScreen, Matrix.cons_val, natAbs_shift,
        natAbs_mirror, Int.sub_self, Int.natAbs_zero, Nat.max_zero, Nat.max_comm]

/-- Neither axis gets more than half a pixel ahead of the other. -/
theorem half_pixel {A B M : Nat} (hmax : M = max A B) (i : Nat) :
    2 * (A * nearest M B i - B * nearest M A i : Int).natAbs ≤ M := by
  cases Nat.eq_zero_or_pos M with
  | inl hM =>
      have hA : A = 0 := by omega
      have hB : B = 0 := by omega
      simp [hA, hB]
  | inr hM =>
      cases Nat.le_total B A with
      | inl hle =>
          have hA : M = A := by omega
          subst hA
          have hnear := nearest_spec hM B i
          rw [nearest_driving hM]
          omega
      | inr hle =>
          have hB : M = B := by omega
          subst hB
          have hnear := nearest_spec hM A i
          rw [nearest_driving hM]
          omega

/-- What a C++ `int` holds. -/
def FitsInt (value : Int) : Prop := -0x80000000 ≤ value ∧ value < 0x80000000

/-- Between end points less than 2^29 apart nothing `drawLine2D` computes overflows. -/
theorem line2DState_fits {x0 y0 x1 y1 : Int} (hx : (x1 - x0).natAbs < 0x20000000)
    (hy : (y1 - y0).natAbs < 0x20000000) (i : Nat) :
    FitsInt (2 * (line2DState x0 y0 x1 y1 i).err) ∧
      FitsInt ((line2DState x0 y0 x1 y1 i).err + -(y1 - y0).natAbs) ∧
      FitsInt ((line2DState x0 y0 x1 y1 i).err + (x1 - x0).natAbs) := by
  have hnear := half_pixel (A := (x1 - x0).natAbs) (B := (y1 - y0).natAbs) rfl i
  have hlength : length2D x0 y0 x1 y1 < 0x20000000 := Nat.max_lt.mpr ⟨hx, hy⟩
  simp only [FitsInt, line2DState, Int.mul_add, Int.mul_one]
  simp only [length2D] at hlength ⊢
  omega

/-- Between end points less than 2^29 apart nothing `drawLine3D` computes overflows. -/
theorem line3DState_fits {start stop : Vector3i} (h : length3D start stop < 0x20000000)
    (first second : Fin 3) (i : Nat) :
    FitsInt ((line3DState start stop first second i).err_1 - 2 * length3D start stop) ∧
      FitsInt ((line3DState start stop first second i).err_1 + twice start stop first) ∧
      FitsInt ((line3DState start stop first second i).err_2 - 2 * length3D start stop) ∧
      FitsInt ((line3DState start stop first second i).err_2 + twice start stop second) := by
  have hle := natAbs_le_length3D start stop
  have hfits : ∀ axis,
      FitsInt (error (length3D start stop) (stop axis - start axis).natAbs i -
        2 * length3D start stop) ∧
      FitsInt (error (length3D start stop) (stop axis - start axis).natAbs i +
        twice start stop axis) := fun axis => by
    have hbounds := error_bounds (hle axis) i
    have haxis := hle axis
    simp only [FitsInt, twice]
    omega
  exact ⟨(hfits first).1, (hfits first).2, (hfits second).1, (hfits second).2⟩

end CubeApplication

/-- `drawLine2D` ends after one turn for each step and one more. It sets on its face the points of
a line, from end to end, moving one way on each axis, at most half a pixel off, and what it
lights are the pixels of the panel under these points. -/
theorem drawLine2D_faithful (x0 y0 x1 y1 : Int) :
    ∃ points, (∀ fuel, CubeApplication.line2DPoints fuel x0 y0 x1 y1 =
        if CubeApplication.length2D x0 y0 x1 y1 < fuel then some points else none) ∧
      (∀ fuel unset screens screenNr col,
        CubeApplication.drawLine2D fuel unset screens screenNr x0 y0 x1 y1 col =
          if CubeApplication.length2D x0 y0 x1 y1 < fuel then
            CubeApplication.plot screens
              (points.map (CubeApplication.getPointOnScreen unset screenNr)) col
          else none) ∧
      (∀ fuel unset screenNr col, screenNr ≠ .anyScreen →
        CubeApplication.length2D x0 y0 x1 y1 < fuel →
        CubeApplication.Draws
          (fun screens => CubeApplication.drawLine2D fuel unset screens screenNr x0 y0 x1 y1 col)
          screenNr (InkLayers.ink col (CubeApplication.Through points))) ∧
      RasterLine.Faithful (CubeApplication.length2D x0 y0 x1 y1) ![x0, y0] ![x1, y1] points ∧
      ∀ p ∈ points, 2 * ((x1 - x0).natAbs * (p 1 - y0).natAbs -
        (y1 - y0).natAbs * (p 0 - x0).natAbs : Int).natAbs ≤
          CubeApplication.length2D x0 y0 x1 y1 := by
  refine ⟨CubeApplication.line2D x0 y0 x1 y1, fun fuel =>
    CubeApplication.line2DPoints_eq fuel x0 y0 x1 y1, ?_, ?_, RasterLine.line_faithful ?_, ?_⟩
  · intro fuel unset screens screenNr col
    rw [CubeApplication.drawLine2D, CubeApplication.line2DPoints_eq]
    split <;> rfl
  · intro fuel unset screenNr col hface hfuel
    exact CubeApplication.draws_line2D unset hface hfuel col
  · exact Fin.forall_fin_two.mpr ⟨Nat.le_max_left _ _, Nat.le_max_right _ _⟩
  · intro p hp
    obtain ⟨i, -, rfl⟩ := List.mem_map.mp hp
    have hmove : ∀ a d : Int, (a + RasterLine.along (CubeApplication.length2D x0 y0 x1 y1) d i -
        a).natAbs = RasterLine.nearest (CubeApplication.length2D x0 y0 x1 y1) d.natAbs i :=
      fun a d => by rw [Int.add_comm, Int.add_sub_cancel, RasterLine.natAbs_along]
    simp only [RasterLine.pointAt, Matrix.cons_val, hmove]
    exact CubeApplication.half_pixel rfl i

/-- `drawLine3D` sets the points of a line: from end to end, moving one way on each axis, at
most half a step off. What it lights are the pixels that these points are drawn on. -/
theorem drawLine3D_faithful (start stop : Vector3i) :
    RasterLine.Faithful (CubeApplication.length3D start stop) start stop
      (CubeApplication.line3DPoints start stop) ∧
    (∀ screens col, CubeApplication.drawLine3D screens start stop col =
      CubeApplication.plot screens (CubeApplication.line3DPoints start stop) col) ∧
    ∀ screens col, SixPanels screens → ∃ screens',
      CubeApplication.drawLine3D screens start stop col = some screens' ∧ SixPanels screens' ∧
      ∀ index u v, index < 6 → CubeApplication.OnPanel u v → shownAt screens' index u v =
        if CubeApplication.Lights (CubeApplication.line3DPoints start stop) index u v then some col
        else shownAt screens index u v := by
  refine ⟨?_, fun _ _ => rfl, ?_⟩
  · rw [CubeApplication.line3DPoints_eq]
    exact RasterLine.line_faithful (CubeApplication.natAbs_le_length3D start stop)
  · intro screens col h
    exact CubeApplication.plot_shown h (CubeApplication.line3DPoints start stop) col

/-- On every face the two algorithms set the same points in the same order, and light the pixels of
the panel under them. -/
theorem line_algorithms_agree (unset : Vector3i) (s : ScreenNumber) (hs : s ≠ .anyScreen)
    (x0 y0 x1 y1 : Int) (fuel : Nat) (hfuel : CubeApplication.length2D x0 y0 x1 y1 < fuel) :
    (CubeApplication.line2DPoints fuel x0 y0 x1 y1).map
        (List.map (CubeApplication.getPointOnScreen unset s)) =
      some (CubeApplication.line3DPoints (CubeApplication.getPointOnScreen unset s ![x0, y0])
        (CubeApplication.getPointOnScreen unset s ![x1, y1])) ∧
    (∀ screens col, CubeApplication.drawLine2D fuel unset screens s x0 y0 x1 y1 col =
      CubeApplication.drawLine3D screens (CubeApplication.getPointOnScreen unset s ![x0, y0])
        (CubeApplication.getPointOnScreen unset s ![x1, y1]) col) ∧
    ∃ points, CubeApplication.line2DPoints fuel x0 y0 x1 y1 = some points ∧
      ∀ col, CubeApplication.Draws
        (fun screens => CubeApplication.drawLine3D screens
          (CubeApplication.getPointOnScreen unset s ![x0, y0])
          (CubeApplication.getPointOnScreen unset s ![x1, y1]) col)
        s (InkLayers.ink col (CubeApplication.Through points)) := by
  have hpoints : (CubeApplication.line2D x0 y0 x1 y1).map
      (CubeApplication.getPointOnScreen unset s) =
      CubeApplication.line3DPoints (CubeApplication.getPointOnScreen unset s ![x0, y0])
        (CubeApplication.getPointOnScreen unset s ![x1, y1]) := by
    rw [CubeApplication.line3DPoints_eq, CubeApplication.line3D, CubeApplication.line2D,
      CubeApplication.length3D_getPointOnScreen unset hs]
    exact (CubeApplication.axisParallel_getPointOnScreen unset hs).line _ _ _
  have hloop := CubeApplication.line2DPoints_eq fuel x0 y0 x1 y1
  rw [if_pos hfuel] at hloop
  have hsame : ∀ screens col, CubeApplication.drawLine2D fuel unset screens s x0 y0 x1 y1 col =
      CubeApplication.drawLine3D screens (CubeApplication.getPointOnScreen unset s ![x0, y0])
        (CubeApplication.getPointOnScreen unset s ![x1, y1]) col := by
    intro screens col
    rw [CubeApplication.drawLine2D, hloop, Option.bind_some, hpoints, CubeApplication.drawLine3D]
  refine ⟨by rw [hloop, Option.map_some, hpoints], hsame, _, hloop, ?_⟩
  intro col
  simp only [← hsame]
  exact CubeApplication.draws_line2D unset hs hfuel col

theorem tilted_line_on_top_agrees :
    CubeApplication.drawLine2D 8 ![0, 0, 0] blackPanels .top (-2) 3 5 6 ⟨255, 0, 0⟩ =
      CubeApplication.drawLine3D blackPanels
        (CubeApplication.getPointOnScreen ![0, 0, 0] .top ![-2, 3])
        (CubeApplication.getPointOnScreen ![0, 0, 0] .top ![5, 6]) ⟨255, 0, 0⟩ :=
  (line_algorithms_agree ![0, 0, 0] .top (by decide) (-2) 3 5 6 8 (by decide)).2.1 blackPanels
    ⟨255, 0, 0⟩

end MatrixServer
