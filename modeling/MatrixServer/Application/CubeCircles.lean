import MatrixServer.Application.CubeLines
import MatrixServer.Foundation.RasterCircle

/-!
The circles of application/CubeApplication.cpp.
`radiusError` is not how far the point is off the circle: each turn moves it two or four away
from that. What has added up is told by the point alone, so the error still says when to move
inwards.
-/

namespace MatrixServer
open RasterCircle

namespace CubeApplication.Circle2D

def point (st : Circle2D) : Int × Int := (st.x, st.y)

/-- `radiusError` is what the point's distance from the circle and its place on it make of it,
and a point that is drawn lies near the circle. -/
structure OnCircle (radius : Int) (st : Circle2D) : Prop where
  error : st.radiusError = st.x * st.x + st.y * st.y - radius * radius + 1 + radius +
    2 * (st.y - st.x)
  nonneg : 0 ≤ st.y
  inside : st.x ≤ radius
  near : st.y ≤ st.x → Near radius st.point

theorem next_cases (st : Circle2D) :
    (st.radiusError < 0 ∧ st.next.x = st.x ∧ st.next.y = st.y + 1 ∧
      st.next.radiusError = st.radiusError + 2 * st.y + 3) ∨
    (0 ≤ st.radiusError ∧ st.next.x = st.x - 1 ∧ st.next.y = st.y + 1 ∧
      st.next.radiusError = st.radiusError + 2 * (st.y - st.x) + 6) := by
  simp only [next]
  split
  · rename_i hneg
    exact .inl ⟨hneg, rfl, rfl, by simp only []; omega⟩
  · rename_i hneg
    exact .inr ⟨Int.not_lt.mp hneg, rfl, rfl, by simp only []; omega⟩

theorem next_step (st : Circle2D) : Step st.point st.next.point := by
  obtain ⟨-, hx, hy, -⟩ | ⟨-, hx, hy, -⟩ := next_cases st
  · exact ⟨.inl hx, hy⟩
  · exact ⟨.inr hx, hy⟩

theorem square_succ (a : Int) : (a + 1) * (a + 1) = a * a + 2 * a + 1 := by
  rw [Int.add_mul, Int.mul_add]
  omega

theorem square_pred (a : Int) : (a - 1) * (a - 1) = a * a - 2 * a + 1 := by
  rw [Int.sub_mul, Int.mul_sub]
  omega

theorem onCircle_start {radius : Int} (h : 1 ≤ radius) :
    OnCircle radius { x := radius, y := 0, radiusError := 1 - radius } := by
  refine ⟨?_, Int.le_refl _, Int.le_refl _, fun _ => ⟨?_, ?_⟩⟩
  all_goals
    simp only [point]
    omega

/-- Without a step inwards the point moves away from the centre, and the error was small enough
for that; with a step it moves towards it, and the error was large enough. -/
theorem OnCircle.next {radius : Int} {st : Circle2D} (h : OnCircle radius st)
    (hdraw : st.y ≤ st.x) : OnCircle radius st.next := by
  obtain ⟨herror, hnonneg, hinside, hnear⟩ := h
  obtain ⟨houter, hinner⟩ := hnear hdraw
  simp only [point] at houter hinner
  obtain ⟨hneg, hx, hy, hnext⟩ | ⟨hneg, hx, hy, hnext⟩ := next_cases st
  · refine ⟨?_, by omega, by omega, fun _ => ⟨?_, ?_⟩⟩
    all_goals
      simp only [point, hnext, hx, hy, square_succ]
      omega
  · refine ⟨?_, by omega, by omega, fun hbelow => ?_⟩
    · rw [hnext, hx, hy, square_succ, square_pred]
      omega
    · rw [hx, hy] at hbelow
      simp only [Near, point, hx, hy, square_succ, square_pred]
      omega

/-- Below a radius of 2^29 the error stays a C++ `int`, before a turn's change and after it. -/
theorem OnCircle.fits {radius : Int} {st : Circle2D} (h : OnCircle radius st)
    (hdraw : st.y ≤ st.x) (hradius : radius < 0x20000000) :
    FitsInt st.radiusError ∧ FitsInt st.next.radiusError := by
  obtain ⟨herror, hnonneg, hinside, hnear⟩ := h
  obtain ⟨houter, hinner⟩ := hnear hdraw
  simp only [point] at houter hinner
  have hnext := next_cases st
  exact ⟨⟨by omega, by omega⟩, ⟨by omega, by omega⟩⟩

/-- The turns of `drawCircle2D` from the state it starts in. -/
abbrev Turns (radius : Int) : List Circle2D → Prop :=
  PlotLoops.Turns (fun st => decide (st.y ≤ st.x)) next
    { x := radius, y := 0, radiusError := 1 - radius }

theorem exists_turns (radius : Int) :
    ∃ states, Turns radius states ∧ states.length ≤ (radius + 1).toNat := by
  have hcloser : ∀ st : Circle2D, decide (st.y ≤ st.x) = true →
      (st.next.x - st.next.y + 1).toNat < (st.x - st.y + 1).toNat := by
    intro st hdraw
    have hle : st.y ≤ st.x := of_decide_eq_true hdraw
    have hnext := next_cases st
    omega
  obtain ⟨states, hturns, hlength⟩ := PlotLoops.exists_turns
    (fun st : Circle2D => (st.x - st.y + 1).toNat) hcloser
    { x := radius, y := 0, radiusError := 1 - radius }
  exact ⟨states, hturns, by simpa using hlength⟩

theorem octant_of_turns {radius : Int} (h : 1 ≤ radius) {states : List Circle2D}
    (hturns : Turns radius states) : Octant radius (states.map point) := by
  have hon := hturns.invariant (OnCircle radius) (onCircle_start h) fun st hst hdraw =>
    hst.next (of_decide_eq_true hdraw)
  have hfirst := hturns.head_eq (decide_eq_true (by simp only []; omega))
  constructor
  · rintro p hp
    obtain ⟨st, hst, rfl⟩ := List.mem_map.mp hp
    exact (hon st hst).1.near (of_decide_eq_true (hon st hst).2)
  · apply List.isChain_map_of_isChain point _ hturns.isChain
    rintro st _ rfl
    exact next_step st
  · rw [List.head?_map, hfirst]
    rfl
  · intro p hp
    rw [List.getLast?_map] at hp
    obtain ⟨st, hst, rfl⟩ := Option.map_eq_some_iff.mp hp
    have hstop := of_decide_eq_false (hturns.getLast_stops st hst)
    have hdraw := of_decide_eq_true (hon st (List.mem_of_getLast? hst)).2
    have hnext := next_cases st
    simp only [point]
    omega

end CubeApplication.Circle2D

theorem CubeApplication.through_moved (offsets : List (Int × Int)) (x0 y0 : Int) (p : Int × Int) :
    Through (offsets.map fun q => ![q.1 + x0, q.2 + y0]) p ↔ (p.1 - x0, p.2 - y0) ∈ offsets := by
  constructor
  · rintro ⟨point, hpoint, hp⟩
    obtain ⟨q, hq, rfl⟩ := List.mem_map.mp hpoint
    have hq' : (p.1 - x0, p.2 - y0) = q := by
      rw [(point_iff _ p).mp hp]
      exact Prod.ext (Int.add_sub_cancel q.1 x0) (Int.add_sub_cancel q.2 y0)
    rw [hq']
    exact hq
  · intro hmem
    refine ⟨_, List.mem_map_of_mem hmem, (point_iff _ p).mpr ?_⟩
    exact Prod.ext (Int.sub_add_cancel p.1 x0).symm (Int.sub_add_cancel p.2 y0).symm

/-- `drawCircle2D` ends after at most one turn for each pixel of the radius and one more, and the
points it sets are, moved to the centre, a round closed ring: all of them less than half a pixel
off, symmetric to the axes and the diagonals, and joined to one walk around the centre. What it
lights are the pixels of the panel under these points. -/
theorem drawCircle2D_round (radius : Int) :
    ∃ octant : List (Int × Int), octant.length ≤ (radius + 1).toNat ∧
      (∀ fuel, CubeApplication.circle2DOffsets fuel radius =
        if octant.length < fuel then some (outline octant) else none) ∧
      (∀ fuel unset screens screenNr x0 y0 col, octant.length < fuel →
        CubeApplication.drawCircle2D fuel unset screens screenNr x0 y0 radius col =
          CubeApplication.plot screens ((outline octant).map fun p =>
            CubeApplication.getPointOnScreen unset screenNr ![p.1 + x0, p.2 + y0]) col) ∧
      (∀ fuel unset screenNr x0 y0 col, screenNr ≠ .anyScreen → octant.length < fuel →
        CubeApplication.Draws
          (fun screens =>
            CubeApplication.drawCircle2D fuel unset screens screenNr x0 y0 radius col)
          screenNr (InkLayers.ink col fun p => (p.1 - x0, p.2 - y0) ∈ outline octant)) ∧
      (1 ≤ radius → Octant radius octant ∧ (∀ p ∈ outline octant, Near radius p ∧
          (-p.1, p.2) ∈ outline octant ∧ (p.1, -p.2) ∈ outline octant ∧
          p.swap ∈ outline octant) ∧
        Walk (radius, 0) (radius, 0) (ring octant) ∧
        ∀ p, p ∈ ring octant ↔ p ∈ outline octant) ∧
      (radius = 0 → ∀ p, p ∈ outline octant ↔ p = (0, 0)) ∧
      (radius < 0 → outline octant = []) := by
  obtain ⟨states, hturns, hlength⟩ := CubeApplication.Circle2D.exists_turns radius
  have houtline : (states.map CubeApplication.Circle2D.offsets).flatten =
      outline (states.map CubeApplication.Circle2D.point) := by
    rw [outline, List.flatMap_map, List.flatMap_def]
    rfl
  have hloop : ∀ fuel, CubeApplication.circle2DOffsets fuel radius =
      if (states.map CubeApplication.Circle2D.point).length < fuel then
        some (outline (states.map CubeApplication.Circle2D.point)) else none := by
    intro fuel
    rw [CubeApplication.circle2DOffsets, hturns.whileLoop_eq, List.length_map, ← houtline]
    split <;> rfl
  have hplot : ∀ fuel unset screens screenNr x0 y0 col,
      (states.map CubeApplication.Circle2D.point).length < fuel →
      CubeApplication.drawCircle2D fuel unset screens screenNr x0 y0 radius col =
        CubeApplication.plot screens
          ((outline (states.map CubeApplication.Circle2D.point)).map fun p =>
            CubeApplication.getPointOnScreen unset screenNr ![p.1 + x0, p.2 + y0]) col := by
    intro fuel unset screens screenNr x0 y0 col hfuel
    rw [CubeApplication.drawCircle2D, hloop, if_pos hfuel]
    rfl
  refine ⟨states.map CubeApplication.Circle2D.point, ?_, hloop, hplot, ?_, ?_, ?_, ?_⟩
  · rw [List.length_map]
    exact hlength
  · intro fuel unset screenNr x0 y0 col hface hfuel
    have hdraws := CubeApplication.draws_plot unset hface
      ((outline (states.map CubeApplication.Circle2D.point)).map fun p => ![p.1 + x0, p.2 + y0]) col
    rw [InkLayers.ink_congr col (CubeApplication.through_moved _ x0 y0)] at hdraws
    simp only [hplot _ _ _ _ _ _ _ hfuel]
    rw [List.map_map] at hdraws
    exact hdraws
  · intro hradius
    have hoctant := CubeApplication.Circle2D.octant_of_turns hradius hturns
    refine ⟨hoctant, fun p hp => ⟨near_outline hoctant.near p hp, outline_symmetric hp⟩,
      hoctant.walk_ring, fun p => mem_ring⟩
  · rintro rfl p
    have hone := hloop 2
    rw [if_pos (by rw [List.length_map]; exact Nat.lt_succ_of_le hlength)] at hone
    rw [← Option.some.inj hone]
    simp [CubeApplication.Circle2D.offsets]
  · intro hradius
    have hnone : states.length = 0 := Nat.eq_zero_of_le_zero (by omega)
    rw [List.eq_nil_of_length_eq_zero hnone]
    rfl

end MatrixServer
