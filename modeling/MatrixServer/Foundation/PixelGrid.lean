import Mathlib.Data.Set.Function
import Mathlib.Data.List.Nodup

/-!
Rectangular grids of pixels.
The pixels of a grid are numbered column by column. Numbering them, mirroring a grid and
exchanging its axes are bijections, so whatever is put together from these goes through
each pixel once.
-/

namespace PixelGrid

/-- The grid of `w` by `h` pixels whose first pixel is at (x0, y0). -/
def rectAt (x0 y0 w h : Int) : Set (Int × Int) :=
  {p | x0 ≤ p.1 ∧ p.1 < x0 + w ∧ y0 ≤ p.2 ∧ p.2 < y0 + h}

def rect (w h : Int) : Set (Int × Int) := {p | 0 ≤ p.1 ∧ p.1 < w ∧ 0 ≤ p.2 ∧ p.2 < h}

def cells (count : Int) : Set Int := {k | 0 ≤ k ∧ k < count}

/-- The number of a pixel in a grid with columns of `h`. -/
def number (h : Int) (p : Int × Int) : Int := p.2 + p.1 * h

def mirrorColumns (w : Int) (p : Int × Int) : Int × Int := (w - 1 - p.1, p.2)

def mirrorRows (h : Int) (p : Int × Int) : Int × Int := (p.1, h - 1 - p.2)

def moveTo (x0 y0 : Int) (p : Int × Int) : Int × Int := (x0 + p.1, y0 + p.2)

theorem number_nonneg {w h : Int} {p : Int × Int} (hp : p ∈ rect w h) : 0 ≤ number h p := by
  obtain ⟨hx, -, hy, hheight⟩ := hp
  exact Int.add_nonneg hy (Int.mul_nonneg hx (by omega))

theorem number_lt {w h : Int} {p : Int × Int} (hp : p ∈ rect w h) : number h p < w * h := by
  obtain ⟨hx, hwidth, hy, hheight⟩ := hp
  calc p.2 + p.1 * h < h + p.1 * h := Int.add_lt_add_right hheight _
    _ = (p.1 + 1) * h := by rw [Int.add_mul, Int.one_mul, Int.add_comm]
    _ ≤ w * h := Int.mul_le_mul_of_nonneg_right hwidth (by omega)

/-- A pixel is found from its number. -/
theorem number_ediv_emod {w h : Int} {p : Int × Int} (hp : p ∈ rect w h) :
    (number h p / h, number h p % h) = p := by
  obtain ⟨-, -, hy, hheight⟩ := hp
  have hpos : h ≠ 0 := by omega
  rw [number, Int.add_mul_ediv_right _ _ hpos, Int.ediv_eq_zero_of_lt hy hheight,
    Int.add_mul_emod_self_right, Int.emod_eq_of_lt hy hheight, Int.zero_add]

/-- Pixels in rows of the columns have different numbers, however far the grid goes. -/
theorem number_inj {h : Int} {p q : Int × Int} (hp : p.2 ∈ cells h) (hq : q.2 ∈ cells h)
    (heq : number h p = number h q) : p = q := by
  have hcolumn : ∀ r : Int × Int, r.2 ∈ cells h → number h r / h = r.1 := by
    rintro r ⟨hlow, hhigh⟩
    rw [number, Int.add_mul_ediv_right _ _ (by omega), Int.ediv_eq_zero_of_lt hlow hhigh,
      Int.zero_add]
  have hfirst : p.1 = q.1 := by rw [← hcolumn p hp, heq, hcolumn q hq]
  rw [number, number, hfirst, Int.add_left_inj] at heq
  exact Prod.ext hfirst heq

theorem bijOn_number (w : Int) {h : Int} (hh : 0 < h) :
    Set.BijOn (number h) (rect w h) (cells (w * h)) := by
  refine ⟨fun p hp => ⟨number_nonneg hp, number_lt hp⟩, fun p hp q hq heq => ?_, fun k hk => ?_⟩
  · rw [← number_ediv_emod hp, ← number_ediv_emod hq, heq]
  · refine ⟨(k / h, k % h), ⟨Int.ediv_nonneg hk.1 (Int.le_of_lt hh), ?_,
      Int.emod_nonneg _ (Int.ne_of_gt hh), Int.emod_lt_of_pos _ hh⟩, ?_⟩
    · exact Int.ediv_lt_of_lt_mul hh hk.2
    · rw [number, Int.mul_comm, Int.emod_add_mul_ediv]

theorem bijOn_swap (w h : Int) : Set.BijOn Prod.swap (rect w h) (rect h w) := by
  refine ⟨fun p hp => ⟨hp.2.2.1, hp.2.2.2, hp.1, hp.2.1⟩, Prod.swap_injective.injOn,
    fun p hp => ⟨p.swap, ⟨hp.2.2.1, hp.2.2.2, hp.1, hp.2.1⟩, Prod.swap_swap p⟩⟩

/-- A map of a grid that undoes itself is a bijection of it. -/
theorem bijOn_of_involution {f : Int × Int → Int × Int} {s : Set (Int × Int)}
    (hmaps : Set.MapsTo f s s) (htwice : ∀ p, f (f p) = p) : Set.BijOn f s s := by
  refine ⟨hmaps, fun p _ q _ heq => ?_, fun p hp => ⟨f p, hmaps hp, htwice p⟩⟩
  rw [← htwice p, heq, htwice q]

theorem bijOn_mirrorColumns (w h : Int) :
    Set.BijOn (mirrorColumns w) (rect w h) (rect w h) := by
  refine bijOn_of_involution (fun p hp => ?_) fun p => ?_
  · obtain ⟨hx, hwidth, hy, hheight⟩ := hp
    refine ⟨?_, ?_, hy, hheight⟩ <;> simp only [mirrorColumns] <;> omega
  · simp only [mirrorColumns, Int.sub_sub_self]

theorem bijOn_mirrorRows (w h : Int) : Set.BijOn (mirrorRows h) (rect w h) (rect w h) := by
  refine bijOn_of_involution (fun p hp => ?_) fun p => ?_
  · obtain ⟨hx, hwidth, hy, hheight⟩ := hp
    refine ⟨hx, hwidth, ?_, ?_⟩ <;> simp only [mirrorRows] <;> omega
  · simp only [mirrorRows, Int.sub_sub_self]

theorem bijOn_moveTo (x0 y0 w h : Int) :
    Set.BijOn (moveTo x0 y0) (rect w h) (rectAt x0 y0 w h) := by
  refine ⟨fun p hp => ?_, fun p _ q _ heq => ?_, fun p hp => ?_⟩
  · obtain ⟨hx, hwidth, hy, hheight⟩ := hp
    refine ⟨?_, ?_, ?_, ?_⟩ <;> simp only [moveTo] <;> omega
  · simp only [moveTo, Prod.mk.injEq, Int.add_right_inj] at heq
    exact Prod.ext heq.1 heq.2
  · obtain ⟨hx, hwidth, hy, hheight⟩ := hp
    refine ⟨(p.1 - x0, p.2 - y0), ⟨?_, ?_, ?_, ?_⟩, ?_⟩
    all_goals simp only [moveTo]
    · omega
    · omega
    · omega
    · omega
    · exact Prod.ext (by simp only []; omega) (by simp only []; omega)

/-- The turns of two loops, the second inside the first. -/
def scan (w h : Int) : List (Int × Int) :=
  (List.range w.toNat).flatMap fun i : Nat =>
    (List.range h.toNat).map fun j : Nat => ((i : Int), (j : Int))

theorem mem_scan {w h : Int} {p : Int × Int} : p ∈ scan w h ↔ p ∈ rect w h := by
  simp only [scan, List.mem_flatMap, List.mem_map, List.mem_range]
  constructor
  · rintro ⟨i, hi, j, hj, rfl⟩
    refine ⟨?_, ?_, ?_, ?_⟩ <;> simp only [] <;> omega
  · rintro ⟨hx, hwidth, hy, hheight⟩
    refine ⟨p.1.toNat, by omega, p.2.toNat, by omega, Prod.ext ?_ ?_⟩
    · exact Int.toNat_of_nonneg hx
    · exact Int.toNat_of_nonneg hy

theorem nodup_scan (w h : Int) : (scan w h).Nodup := by
  refine List.nodup_flatMap.mpr ⟨fun i _ => ?_, ?_⟩
  · apply List.nodup_range.map
    intro j j' heq
    simpa only [Prod.mk.injEq, true_and, Int.natCast_inj] using heq
  · refine List.nodup_range.imp fun {i i'} hne => ?_
    simp only [Function.onFun, List.disjoint_left, List.mem_map]
    rintro p ⟨j, -, rfl⟩ ⟨j', -, heq⟩
    simp only [Prod.mk.injEq, Int.natCast_inj] at heq
    exact hne heq.1.symm

/-- A scan moved by a bijection goes through the image once. -/
theorem scan_map {w h : Int} {f : Int × Int → Int × Int} {s : Set (Int × Int)}
    (hf : Set.BijOn f (rect w h) s) :
    ((scan w h).map f).Nodup ∧ ∀ p, p ∈ (scan w h).map f ↔ p ∈ s := by
  refine ⟨(nodup_scan w h).map_on fun p hp q hq heq => ?_, fun p => ?_⟩
  · exact hf.injOn (mem_scan.mp hp) (mem_scan.mp hq) heq
  · rw [List.mem_map, ← hf.image_eq]
    exact exists_congr fun q => and_congr_left' mem_scan

/-- Two bijections of the same pixels match their images with one another. -/
theorem exists_matching {f : Int × Int → Int × Int} {g : Int × Int → Int}
    {s t : Set (Int × Int)} {u : Set Int} (hf : Set.BijOn f s t) (hg : Set.BijOn g s u) :
    ∃ m, Set.BijOn m t u ∧ ∀ p ∈ s, m (f p) = g p := by
  have hinv := hf.invOn_invFunOn
  refine ⟨g ∘ Function.invFunOn f s, hg.comp (Set.BijOn.symm hinv.symm hf), fun p hp => ?_⟩
  exact congrArg g (hinv.1 hp)

end PixelGrid
