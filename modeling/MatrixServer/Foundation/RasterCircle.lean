import Mathlib.Data.List.Chain

/-!
Circles on a grid, drawn from an eighth of them.
The points of an octant are mirrored into the other seven. When the octant starts on an axis
and runs up to the diagonal, one pixel at a time, its images form one closed ring.
-/

namespace RasterCircle

/-- Two pixels that touch, at a side or at a corner, or are the same. -/
def Adjacent (p q : Int × Int) : Prop := (q.1 - p.1).natAbs ≤ 1 ∧ (q.2 - p.2).natAbs ≤ 1

/-- One pixel further in an octant. -/
def Step (p q : Int × Int) : Prop := (q.1 = p.1 ∨ q.1 = p.1 - 1) ∧ q.2 = p.2 + 1

/-- The pixels less than half a pixel away from the circle with a radius around (0, 0). -/
def Near (radius : Int) (p : Int × Int) : Prop :=
  radius * radius - radius < p.1 * p.1 + p.2 * p.2 ∧
    p.1 * p.1 + p.2 * p.2 ≤ radius * radius + radius

/-- A point and its images in the other octants. -/
def images (p : Int × Int) : List (Int × Int) :=
  [p, p.swap, (-p.1, p.2), (-p.2, p.1), (-p.1, -p.2), (-p.2, -p.1), (p.1, -p.2), (p.2, -p.1)]

def outline (octant : List (Int × Int)) : List (Int × Int) := octant.flatMap images

def quarterTurn (p : Int × Int) : Int × Int := (-p.2, p.1)

/-- Up an octant and down the next one. -/
def quarter (octant : List (Int × Int)) : List (Int × Int) :=
  octant ++ (octant.map Prod.swap).reverse

/-- The images of an octant in the order in which one walks around. -/
def ring (octant : List (Int × Int)) : List (Int × Int) :=
  quarter octant ++ ((quarter octant).map quarterTurn ++
    ((quarter octant).map (quarterTurn ∘ quarterTurn) ++
      (quarter octant).map (quarterTurn ∘ quarterTurn ∘ quarterTurn)))

/-- A walk from pixel to touching pixel. -/
structure Walk (start stop : Int × Int) (walk : List (Int × Int)) : Prop where
  steps : walk.IsChain Adjacent
  head : walk.head? = some start
  last : walk.getLast? = some stop

/-- What an octant of a circle with a radius has to be: pixels near the circle, from the axis
up to the diagonal. -/
structure Octant (radius : Int) (octant : List (Int × Int)) : Prop where
  near : ∀ p ∈ octant, Near radius p
  steps : octant.IsChain Step
  head : octant.head? = some (radius, 0)
  last : ∀ p ∈ octant.getLast?, 0 ≤ p.1 - p.2 ∧ p.1 - p.2 ≤ 1

theorem mem_images {p q : Int × Int} : q ∈ images p ↔
    ((q.1 = p.1 ∨ q.1 = -p.1) ∧ (q.2 = p.2 ∨ q.2 = -p.2)) ∨
      ((q.1 = p.2 ∨ q.1 = -p.2) ∧ (q.2 = p.1 ∨ q.2 = -p.1)) := by
  simp only [images, List.mem_cons, Prod.ext_iff, List.not_mem_nil, or_false, Prod.fst_swap,
    Prod.snd_swap]
  grind

/-- An outline is symmetric to both axes and to the diagonal. -/
theorem outline_symmetric {octant : List (Int × Int)} {p : Int × Int} (h : p ∈ outline octant) :
    (-p.1, p.2) ∈ outline octant ∧ (p.1, -p.2) ∈ outline octant ∧ p.swap ∈ outline octant := by
  obtain ⟨q, hq, hp⟩ := List.mem_flatMap.mp h
  rw [mem_images] at hp
  have himage : ∀ p', p' ∈ images q → p' ∈ outline octant := fun p' hp' =>
    List.mem_flatMap.mpr ⟨q, hq, hp'⟩
  refine ⟨himage _ ?_, himage _ ?_, himage _ ?_⟩
  all_goals
    rw [mem_images]
    simp only [Prod.fst_swap, Prod.snd_swap]
    omega

theorem near_images {radius : Int} {p q : Int × Int} (h : Near radius p) (hq : q ∈ images p) :
    Near radius q := by
  have hsquares : q.1 * q.1 + q.2 * q.2 = p.1 * p.1 + p.2 * p.2 := by
    rw [mem_images] at hq
    obtain ⟨hx | hx, hy | hy⟩ | ⟨hx | hx, hy | hy⟩ := hq
    all_goals simp only [hx, hy, Int.neg_mul_neg, Int.add_comm]
  rw [Near, hsquares]
  exact h

theorem near_outline {radius : Int} {octant : List (Int × Int)}
    (h : ∀ p ∈ octant, Near radius p) : ∀ q ∈ outline octant, Near radius q := by
  intro q hq
  obtain ⟨p, hp, himage⟩ := List.mem_flatMap.mp hq
  exact near_images (h p hp) himage

/-- The ring goes through the outline and nothing else. -/
theorem mem_ring {octant : List (Int × Int)} {p : Int × Int} :
    p ∈ ring octant ↔ p ∈ outline octant := by
  have hquarter : ∀ turn : Int × Int → Int × Int, p ∈ (quarter octant).map turn ↔
      ∃ q ∈ octant, p = turn q ∨ p = turn q.swap := by
    intro turn
    simp only [quarter, List.map_append, List.map_reverse, List.map_map, List.mem_append,
      List.mem_reverse, List.mem_map, Function.comp_apply, ← exists_or, ← and_or_left, eq_comm]
  have hfirst := hquarter id
  rw [List.map_id] at hfirst
  simp only [ring, outline, List.mem_append, hquarter, hfirst, List.mem_flatMap, ← exists_or,
    ← and_or_left]
  refine exists_congr fun q => and_congr_right' ?_
  simp only [images, List.mem_cons, List.not_mem_nil, or_false, id, quarterTurn,
    Function.comp_apply, Prod.fst_swap, Prod.snd_swap, Int.neg_neg]
  grind

theorem Adjacent.refl (p : Int × Int) : Adjacent p p := by
  simp only [Adjacent, Int.sub_self]
  decide

theorem Adjacent.symm {p q : Int × Int} (h : Adjacent p q) : Adjacent q p := by
  obtain ⟨hx, hy⟩ := h
  exact ⟨by omega, by omega⟩

theorem Step.adjacent {p q : Int × Int} (h : Step p q) : Adjacent p q := by
  obtain ⟨hx, hy⟩ := h
  exact ⟨by omega, by omega⟩

theorem adjacent_swap {p q : Int × Int} (h : Adjacent p q) : Adjacent p.swap q.swap := ⟨h.2, h.1⟩

theorem adjacent_quarterTurn {p q : Int × Int} (h : Adjacent p q) :
    Adjacent (quarterTurn p) (quarterTurn q) := by
  obtain ⟨hx, hy⟩ := h
  refine ⟨?_, hx⟩
  simp only [quarterTurn]
  omega

namespace Walk

variable {p q r s : Int × Int} {walk walk' : List (Int × Int)}

theorem append (h : Walk p q walk) (h' : Walk r s walk') (hmeet : Adjacent q r) :
    Walk p s (walk ++ walk') := by
  refine ⟨List.isChain_append.mpr ⟨h.steps, h'.steps, ?_⟩, ?_, ?_⟩
  · intro x hx y hy
    cases Option.mem_unique hx h.last
    cases Option.mem_unique hy h'.head
    exact hmeet
  · rw [List.head?_append, h.head]
    rfl
  · rw [List.getLast?_append, h'.last]
    rfl

theorem reverse (h : Walk p q walk) : Walk q p walk.reverse := by
  refine ⟨List.isChain_reverse.mpr (h.steps.imp fun _ _ hstep => hstep.symm), ?_, ?_⟩
  · rw [List.head?_reverse, h.last]
  · rw [List.getLast?_reverse, h.head]

theorem map (h : Walk p q walk) {f : Int × Int → Int × Int}
    (hf : ∀ {x y}, Adjacent x y → Adjacent (f x) (f y)) : Walk (f p) (f q) (walk.map f) := by
  refine ⟨List.isChain_map_of_isChain f (fun _ _ => hf) h.steps, ?_, ?_⟩
  · rw [List.head?_map, h.head]
    rfl
  · rw [List.getLast?_map, h.last]
    rfl

end Walk

/-- Walking up an octant and down the next one leads from one axis to the other. -/
theorem Octant.walk_quarter {radius : Int} {octant : List (Int × Int)} (h : Octant radius octant) :
    Walk (radius, 0) (0, radius) (quarter octant) := by
  obtain ⟨last, hlast⟩ : ∃ last, octant.getLast? = some last := by
    cases octant with
    | nil => exact absurd h.head (by simp)
    | cons p octant => exact ⟨_, List.getLast?_eq_some_getLast (List.cons_ne_nil p octant)⟩
  have hup : Walk (radius, 0) last octant :=
    ⟨h.steps.imp fun _ _ hstep => hstep.adjacent, h.head, hlast⟩
  refine hup.append (hup.map adjacent_swap).reverse ?_
  have hdiagonal := h.last last hlast
  constructor
  · simp only [Prod.fst_swap]
    omega
  · simp only [Prod.snd_swap]
    omega

/-- The ring comes back to where it starts. -/
theorem Octant.walk_ring {radius : Int} {octant : List (Int × Int)} (h : Octant radius octant) :
    Walk (radius, 0) (radius, 0) (ring octant) := by
  have hone := h.walk_quarter.map adjacent_quarterTurn
  have htwo := hone.map adjacent_quarterTurn
  have hthree := htwo.map adjacent_quarterTurn
  rw [List.map_map] at htwo hthree
  rw [List.map_map] at hthree
  simp only [quarterTurn, Int.neg_zero, Int.neg_neg] at hone htwo hthree
  exact h.walk_quarter.append (hone.append (htwo.append hthree (.refl _)) (.refl _)) (.refl _)

end RasterCircle
