import Mathlib.Data.Int.Order.Lemmas

/-!
Layers of ink over a picture.
What is drawn later lies over what was drawn before, and where nothing is drawn the picture
shows through. A rectangle on a grid is a border of one ink around what may be another one.
-/

namespace InkLayers

universe u v

/-- What is drawn at each point, if anything. -/
abbrev Layer (ι : Type u) (α : Type v) := ι → Option α

section
variable {ι : Type u} {α : Type v}

/-- One ink at some of the points. -/
def ink (colour : α) (drawn : ι → Prop) [DecidablePred drawn] : Layer ι α :=
  fun p => if drawn p then some colour else none

def overlay (front back : Layer ι α) : Layer ι α := fun p => (front p).or (back p)

theorem ink_congr (colour : α) {drawn drawn' : ι → Prop} [DecidablePred drawn]
    [DecidablePred drawn'] (h : ∀ p, drawn p ↔ drawn' p) :
    ink colour drawn = ink colour drawn' := by
  funext p
  simp only [ink, h p]

/-- Drawing twice with one ink. -/
theorem overlay_ink (colour : α) (drawn drawn' : ι → Prop) [DecidablePred drawn]
    [DecidablePred drawn'] : overlay (ink colour drawn) (ink colour drawn') =
      ink colour fun p => drawn p ∨ drawn' p := by
  funext p
  simp only [overlay, ink]
  by_cases h : drawn p
  · simp only [h, true_or, if_true, Option.some_or]
  · simp only [h, if_false, Option.none_or, false_or]

/-- Drawing nothing. -/
theorem ink_nowhere (colour : α) {drawn : ι → Prop} [DecidablePred drawn] (h : ∀ p, ¬ drawn p) :
    ink colour drawn = fun _ => none := by
  funext p
  exact if_neg (h p)

end

/-- Between two coordinates, whichever is the smaller one. -/
def Spans (a b value : Int) : Prop := min a b ≤ value ∧ value ≤ max a b

instance (a b value : Int) : Decidable (Spans a b value) := inferInstanceAs (Decidable (_ ∧ _))

/-- The grid points between two corners. -/
structure Rect where
  x0 : Int
  y0 : Int
  x1 : Int
  y1 : Int

namespace Rect
variable (r : Rect) (p : Int × Int)

def Covers : Prop := Spans r.x0 r.x1 p.1 ∧ Spans r.y0 r.y1 p.2

def Border : Prop := r.Covers p ∧ (p.1 = r.x0 ∨ p.1 = r.x1 ∨ p.2 = r.y0 ∨ p.2 = r.y1)

def Interior : Prop :=
  (min r.x0 r.x1 < p.1 ∧ p.1 < max r.x0 r.x1) ∧ (min r.y0 r.y1 < p.2 ∧ p.2 < max r.y0 r.y1)

instance : Decidable (r.Covers p) := inferInstanceAs (Decidable (_ ∧ _))

instance : Decidable (r.Border p) := inferInstanceAs (Decidable (_ ∧ _))

instance : Decidable (r.Interior p) := inferInstanceAs (Decidable (_ ∧ _))

/-- The border is made of the four sides. -/
theorem border_iff : r.Border p ↔
    (((p.1 = r.x1 ∧ Spans r.y1 r.y0 p.2) ∨ (p.2 = r.y1 ∧ Spans r.x1 r.x0 p.1)) ∨
      (p.2 = r.y0 ∧ Spans r.x0 r.x1 p.1)) ∨ (p.1 = r.x0 ∧ Spans r.y0 r.y1 p.2) := by
  simp only [Border, Covers, Spans]
  omega

/-- What is covered and not the border lies strictly inside. -/
theorem interior_iff (h : ¬ r.Border p) : r.Interior p ↔ r.Covers p := by
  simp only [Border, Covers, Interior, Spans] at h ⊢
  omega

/-- The rectangle as a layer: the border in one ink, the inside in another one or empty. -/
def layer {α : Type v} (colour : α) (fill : Option α) : Layer (Int × Int) α :=
  fun p => if r.Border p then some colour else if r.Interior p then fill else none

theorem layer_empty {α : Type v} (colour : α) : r.layer colour none = ink colour r.Border := by
  funext p
  rw [layer, ite_self, ink]

/-- The border over the columns of the rectangle, without the last one. -/
theorem border_over_columns {α : Type v} (hx : r.x0 ≤ r.x1) (colour fill : α) :
    overlay (ink colour r.Border)
        (ink fill fun p => (r.x0 ≤ p.1 ∧ p.1 < r.x1) ∧ Spans r.y0 r.y1 p.2) =
      r.layer colour (some fill) := by
  funext p
  simp only [overlay, ink, layer]
  by_cases hborder : r.Border p
  · rw [if_pos hborder, if_pos hborder, Option.some_or]
  · have hinside : ((r.x0 ≤ p.1 ∧ p.1 < r.x1) ∧ Spans r.y0 r.y1 p.2) ↔ r.Interior p := by
      rw [r.interior_iff p hborder]
      simp only [Border, Covers, Spans] at hborder ⊢
      omega
    simp only [hborder, hinside, if_false, Option.none_or]

end Rect
end InkLayers
