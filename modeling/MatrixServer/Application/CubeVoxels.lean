import MatrixServer.Application.CubeFaces

/-!
Reading voxels back.
`getPixel3D` looks for the panel as `setPixel3D` does but clamps nothing: a point beside the
virtual cube is drawn on the panel next to it and read as black, with a warning.
-/

namespace MatrixServer
namespace CubeApplication

/-- The points of the virtual cube: its faces, edges and the room inside. -/
def InCube (pos : Vector3i) : Prop :=
  ∀ axis, 0 ≤ pos axis ∧ pos axis ≤ VIRTUALCUBEMAXINDEX

instance (pos : Vector3i) : Decidable (InCube pos) := inferInstanceAs (Decidable (∀ _, _ ∧ _))

/-- `setPixel3D` at a point puts the colour into this pixel of this panel. -/
structure StoresInto (pos : Vector3i) (index : Nat) (u v : Int) : Prop where
  panel : index < 6
  onPanel : OnPanel u v
  stored : ∀ screens, SixPanels screens → ∀ col, ∃ screens',
    setPixel3D screens pos col none false = some screens' ∧ shownAt screens' index u v = some col

/-- The panel and the pixel that a point is drawn on; it is read from what claims the point as it
is. -/
abbrev writeClaim (x y z : Int) : Option (Nat × Int × Int) :=
  claimedBy (clamp x) (clamp y) (clamp z)

theorem getPixel3D_eq (screens : List Screen) (pos : Vector3i) :
    getPixel3D screens pos = (claimedBy (pos 0) (pos 1) (pos 2)).elim (some .black) fun claim =>
      shownAt screens claim.1 claim.2.1 claim.2.2 := by
  simp only [getPixel3D, claimedBy]
  split_ifs <;> rfl

/-- How a voxel is claimed, by the panels in their order or by none. -/
inductive ClaimCase (x y z : Int) : Option (Nat × Int × Int) → Prop where
  | front : y = 0 → ClaimCase x y z (some (0, x - 1, z - 1))
  | right : y ≠ 0 → x = 65 → ClaimCase x y z (some (1, y - 1, z - 1))
  | back : x ≠ 65 → y = 65 → ClaimCase x y z (some (2, 65 - x - 1, z - 1))
  | left : y ≠ 0 → y ≠ 65 → x = 0 → ClaimCase x y z (some (3, 65 - y - 1, z - 1))
  | top : y ≠ 0 → x ≠ 65 → y ≠ 65 → x ≠ 0 → z = 0 → ClaimCase x y z (some (4, x - 1, 65 - y - 1))
  | bottom : y ≠ 0 → x ≠ 65 → y ≠ 65 → x ≠ 0 → z = 65 → ClaimCase x y z (some (5, x - 1, y - 1))
  | inner : y ≠ 0 → x ≠ 65 → y ≠ 65 → x ≠ 0 → z ≠ 0 → z ≠ 65 → ClaimCase x y z none

theorem claimCase {x y z : Int} {claim : Option (Nat × Int × Int)} (h : claimedBy x y z = claim) :
    ClaimCase x y z claim := by
  subst h
  rw [claimedBy]
  split_ifs with hfront hright hback hleft htop hbottom
  · exact .front hfront
  · exact .right hfront hright
  · exact .back hright hback
  · exact .left hfront hback hleft
  · exact .top hfront hright hback hleft htop
  · exact .bottom hfront hright hback hleft hbottom
  · exact .inner hfront hright hback hleft htop hbottom

theorem claimedBy_inner {x y z : Int} (hx : x ≠ 0 ∧ x ≠ 65) (hy : y ≠ 0 ∧ y ≠ 65)
    (hz : z ≠ 0 ∧ z ≠ 65) : claimedBy x y z = none := by
  cases hclaim : claimedBy x y z with
  | none => rfl
  | some claim =>
      cases claimCase hclaim with
      | front h => exact absurd h hy.1
      | right _ h => exact absurd h hx.2
      | back _ h => exact absurd h hy.2
      | left _ _ h => exact absurd h hx.1
      | top _ _ _ _ h => exact absurd h hz.1
      | bottom _ _ _ _ h => exact absurd h hz.2

theorem index_lt_of_claimedBy {x y z : Int} {claim : Nat × Int × Int}
    (h : claimedBy x y z = some claim) : claim.1 < 6 := by
  cases claimCase h with
  | front | right | back | left | top | bottom => exact of_decide_eq_true rfl

theorem clamp_of_inCube {pos : Vector3i} (h : InCube pos) (axis : Fin 3) :
    clamp (pos axis) = pos axis := by
  have hbounds := h axis
  have hclamp := clamp_cases (pos axis)
  simp only [VIRTUALCUBEMAXINDEX] at hbounds
  omega

/-- Inside the virtual cube the reader asks for the pixel that the writer sets. -/
theorem readClaim_of_inCube {pos : Vector3i} (h : InCube pos) :
    claimedBy (pos 0) (pos 1) (pos 2) = writeClaim (pos 0) (pos 1) (pos 2) := by
  simp only [writeClaim, clamp_of_inCube h]

theorem inCube_iff (pos : Vector3i) : InCube pos ↔ (0 ≤ pos 0 ∧ pos 0 ≤ 65) ∧
    (0 ≤ pos 1 ∧ pos 1 ≤ 65) ∧ (0 ≤ pos 2 ∧ pos 2 ≤ 65) :=
  Fin.forall_fin_succ.trans (and_congr_right fun _ => Fin.forall_fin_two)

/-- Whatever is read from a pixel of a panel lies in the virtual cube. -/
theorem inCube_of_readClaim {pos : Vector3i} {index : Nat} {u v : Int}
    (h : claimedBy (pos 0) (pos 1) (pos 2) = some (index, u, v)) (hon : OnPanel u v) :
    InCube pos := by
  simp only [OnPanel, CUBESIZE] at hon
  rw [inCube_iff]
  cases claimCase h with
  | front | right | back | left | top | bottom => omega

/-- A point beside the virtual cube that is drawn on a panel is on no face for the reader. -/
theorem readClaim_outside {pos : Vector3i} {index : Nat} {u v : Int}
    (h : writeClaim (pos 0) (pos 1) (pos 2) = some (index, u, v)) (hon : OnPanel u v)
    (hout : ¬ InCube pos) :
    claimedBy (pos 0) (pos 1) (pos 2) = none := by
  have hx := clamp_cases (pos 0)
  have hy := clamp_cases (pos 1)
  have hz := clamp_cases (pos 2)
  rw [inCube_iff] at hout
  simp only [OnPanel, CUBESIZE] at hon
  apply claimedBy_inner
  all_goals
    cases claimCase h with
    | front | right | back | left | top | bottom => omega

/-- Drawing a point sets the pixel that claims it and no other one. -/
theorem setPixel3D_shown {screens : List Screen} (h : SixPanels screens) (pos : Vector3i)
    (col : Color) : ∃ screens', setPixel3D screens pos col none false = some screens' ∧
      SixPanels screens' ∧ ∀ index u v, index < 6 → OnPanel u v →
        shownAt screens' index u v =
          if writeClaim (pos 0) (pos 1) (pos 2) = some (index, u, v) then some col
          else shownAt screens index u v := by
  have hset : setPixel3D screens pos col none false =
      (writeClaim (pos 0) (pos 1) (pos 2)).elim (some screens) fun claim =>
        setScreenPixel screens claim.1 claim.2.1 claim.2.2 col false :=
    setPixel3D_eq screens pos col
  cases hclaim : writeClaim (pos 0) (pos 1) (pos 2) with
  | none =>
      rw [hclaim] at hset
      refine ⟨screens, hset, h, ?_⟩
      intro index u v _ _
      rw [if_neg (Option.some_ne_none _).symm]
  | some claim =>
      obtain ⟨index, u, v⟩ := claim
      rw [hclaim, Option.elim_some, setScreenPixel_eq h (index_lt_of_claimedBy hclaim)] at hset
      by_cases hon : OnPanel u v
      · rw [if_pos hon] at hset
        refine ⟨_, hset, sixPanels_modify h index u v col, ?_⟩
        intro index' u' v' hindex hon'
        rw [shownAt_modify h hon col hindex hon']
        simp only [Option.some.injEq, Prod.mk.injEq, eq_comm]
      · rw [if_neg hon] at hset
        refine ⟨screens, hset, h, ?_⟩
        intro index' u' v' _ hon'
        have hother : some (index, u, v) ≠ some (index', u', v') := by
          intro hsame
          cases hsame
          exact hon hon'
        rw [if_neg hother]

theorem getPixel_blackPanels {s : Screen} (h : s ∈ blackPanels) (u v : Int) :
    s.getPixel u v = some .black := by
  have hfull := sixPanels_blackPanels.full s h
  rw [Screen.getPixel]
  split
  · rename_i hin
    have hlt := hfull.index_lt_length hin
    obtain ⟨id, -, rfl⟩ := List.mem_map.mp h
    rw [List.length_replicate] at hlt
    rw [List.getElem?_replicate, if_pos hlt]
  · rfl

theorem shownAt_blackPanels {index : Nat} (h : index < 6) (u v : Int) :
    shownAt blackPanels index u v = some .black := by
  have hlt : index < blackPanels.length := by rw [sixPanels_blackPanels.count]; exact h
  rw [shownAt, List.getElem?_eq_getElem hlt, Option.bind_some,
    getPixel_blackPanels (List.getElem_mem hlt)]

/-- Only the pixel that claims a point gets its colour on black panels too. -/
theorem storesInto_iff (pos : Vector3i) (index : Nat) (u v : Int) :
    StoresInto pos index u v ↔
      writeClaim (pos 0) (pos 1) (pos 2) = some (index, u, v) ∧ OnPanel u v := by
  constructor
  · intro hstores
    refine ⟨?_, hstores.onPanel⟩
    obtain ⟨screens', hset, hshown⟩ :=
      hstores.stored blackPanels sixPanels_blackPanels ⟨255, 255, 255⟩
    obtain ⟨drawn, hdrawn, -, hpixels⟩ :=
      setPixel3D_shown sixPanels_blackPanels pos ⟨255, 255, 255⟩
    cases hdrawn.symm.trans hset
    rw [hpixels index u v hstores.panel hstores.onPanel, shownAt_blackPanels hstores.panel]
      at hshown
    split at hshown
    · assumption
    · exact absurd (Option.some.inj hshown) (by decide)
  · intro hclaim
    have hindex : index < 6 := index_lt_of_claimedBy hclaim.1
    refine ⟨hindex, hclaim.2, ?_⟩
    intro screens h col
    obtain ⟨screens', hset, -, hpixels⟩ := setPixel3D_shown h pos col
    refine ⟨screens', hset, ?_⟩
    rw [hpixels index u v hindex hclaim.2, if_pos hclaim.1]

theorem shownAt_outside {screens : List Screen} (h : SixPanels screens) {index : Nat}
    (hindex : index < 6) {u v : Int} (hout : ¬ OnPanel u v) :
    shownAt screens index u v = some .black := by
  have hlt : index < screens.length := by rw [h.count]; exact hindex
  have hmem := List.getElem_mem hlt
  rw [shownAt, List.getElem?_eq_getElem hlt, Option.bind_some, Screen.getPixel,
    if_neg ((contains_iff_onPanel h hmem u v).not.mpr hout)]

/-- A drawn voxel is read with its colour inside the virtual cube and as black beside it. -/
theorem getPixel3D_drawn {screens screens' : List Screen} (h : SixPanels screens) {pos : Vector3i}
    {col : Color} (hset : setPixel3D screens pos col none false = some screens') {index : Nat}
    {u v : Int} (hstores : StoresInto pos index u v) :
    getPixel3D screens' pos = some (if InCube pos then col else .black) := by
  obtain ⟨hclaim, hon⟩ := (storesInto_iff pos index u v).mp hstores
  rw [getPixel3D_eq]
  split
  · rename_i hin
    obtain ⟨drawn, hdrawn, hshown⟩ := hstores.stored screens h col
    cases hdrawn.symm.trans hset
    rw [readClaim_of_inCube hin, hclaim]
    exact hshown
  · rename_i hout
    rw [readClaim_outside hclaim hon hout]
    rfl

theorem isActivePixel3D_drawn {screens screens' : List Screen} (h : SixPanels screens)
    {pos : Vector3i} {col : Color} (hset : setPixel3D screens pos col none false = some screens')
    {index : Nat} {u v : Int} (hstores : StoresInto pos index u v) :
    isActivePixel3D screens' pos = some (decide (InCube pos ∧ col ≠ .black)) := by
  rw [isActivePixel3D, getPixel3D_drawn h hset hstores, Option.map_some]
  by_cases hin : InCube pos <;> simp [hin]

/-- What is read at a point changes only with the pixel that drawing the point would set. -/
theorem getPixel3D_changed {screens screens' : List Screen} (h : SixPanels screens)
    (h' : SixPanels screens') {p : Vector3i}
    (hchanged : getPixel3D screens' p ≠ getPixel3D screens p) :
    ∃ index u v, StoresInto p index u v ∧
      shownAt screens' index u v ≠ shownAt screens index u v := by
  rw [getPixel3D_eq, getPixel3D_eq] at hchanged
  cases hread : claimedBy (p 0) (p 1) (p 2) with
  | none =>
      rw [hread] at hchanged
      exact absurd rfl hchanged
  | some claim =>
      obtain ⟨index, u, v⟩ := claim
      have hindex : index < 6 := index_lt_of_claimedBy hread
      rw [hread, Option.elim_some, Option.elim_some] at hchanged
      by_cases hon : OnPanel u v
      · have hin := inCube_of_readClaim hread hon
        have hclaim : writeClaim (p 0) (p 1) (p 2) = some (index, u, v) := by
          rw [← readClaim_of_inCube hin, hread]
        exact ⟨index, u, v, (storesInto_iff p index u v).mpr ⟨hclaim, hon⟩, hchanged⟩
      · rw [shownAt_outside h' hindex hon, shownAt_outside h hindex hon] at hchanged
        exact absurd rfl hchanged

end CubeApplication

/-- A drawn voxel is read back with its colour where the reader knows the point, and as black
beside the virtual cube; and drawing changes what is read at a point only if drawing that point
would set the same pixel. -/
theorem getPixel3D_setPixel3D (screens : List Screen) (h : SixPanels screens) (pos : Vector3i)
    (col : Color) :
    ∃ screens', CubeApplication.setPixel3D screens pos col none false = some screens' ∧
      SixPanels screens' ∧
      (∀ index u v, CubeApplication.StoresInto pos index u v →
        CubeApplication.getPixel3D screens' pos =
          some (if CubeApplication.InCube pos then col else .black)) ∧
      ∀ p, CubeApplication.getPixel3D screens' p ≠ CubeApplication.getPixel3D screens p →
        ∃ index u v, CubeApplication.StoresInto pos index u v ∧
          CubeApplication.StoresInto p index u v := by
  obtain ⟨screens', hset, hpanels, hpixels⟩ := CubeApplication.setPixel3D_shown h pos col
  refine ⟨screens', hset, hpanels, ?_, ?_⟩
  · intro index u v hstores
    exact CubeApplication.getPixel3D_drawn h hset hstores
  · intro p hread
    obtain ⟨index, u, v, hstores, hchanged⟩ :=
      CubeApplication.getPixel3D_changed h hpanels hread
    refine ⟨index, u, v, (CubeApplication.storesInto_iff pos index u v).mpr ⟨?_, ?_⟩, hstores⟩
    · by_contra hother
      rw [hpixels index u v hstores.panel hstores.onPanel, if_neg hother] at hchanged
      exact hchanged rfl
    · exact hstores.onPanel

theorem getPixel3D_setPixel3D_left :
    ∃ screens', CubeApplication.setPixel3D blackPanels ![0, 20, 30] ⟨255, 0, 0⟩ none false =
        some screens' ∧
      CubeApplication.getPixel3D screens' ![0, 20, 30] = some ⟨255, 0, 0⟩ := by
  obtain ⟨screens', hset, -, hread, -⟩ := getPixel3D_setPixel3D blackPanels
    sixPanels_blackPanels ![0, 20, 30] ⟨255, 0, 0⟩
  have hstores := (CubeApplication.storesInto_iff ![0, 20, 30] 3 44 29).mpr (by decide)
  have hin : CubeApplication.InCube ![0, 20, 30] := by decide
  exact ⟨screens', hset, (hread 3 44 29 hstores).trans (by rw [if_pos hin])⟩

/-- A point five in front of the cube: drawn on the front panel and read as black. -/
theorem drawn_beside_cube_reads_black :
    ∃ screens', CubeApplication.setPixel3D blackPanels ![10, -5, 10] ⟨255, 0, 0⟩ none false =
        some screens' ∧
      CubeApplication.StoresInto ![10, -5, 10] 0 9 9 ∧
      shownAt screens' 0 9 9 = some ⟨255, 0, 0⟩ ∧
      CubeApplication.getPixel3D screens' ![10, -5, 10] = some .black := by
  obtain ⟨screens', hset, -, hpixels⟩ := CubeApplication.setPixel3D_shown
    sixPanels_blackPanels ![10, -5, 10] ⟨255, 0, 0⟩
  have hclaim : CubeApplication.writeClaim 10 (-5) 10 = some (0, 9, 9) := by decide
  have hon : CubeApplication.OnPanel 9 9 := by decide
  refine ⟨screens', hset, (CubeApplication.storesInto_iff _ 0 9 9).mpr ⟨hclaim, hon⟩, ?_, rfl⟩
  exact (hpixels 0 9 9 (by decide) hon).trans (if_pos hclaim)

end MatrixServer
