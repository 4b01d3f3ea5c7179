import Mathlib.Algebra.GroupWithZero.Nat
import Mathlib.Data.List.Chain

/-!
Spans of a buffer that lie behind one another.
Laying out lengths from a position on gives consecutive spans, which are disjoint and fill
the buffer up to the sum of the lengths.
-/

namespace Spans

structure Span where
  start : Nat
  length : Nat
  deriving DecidableEq

def Span.stop (span : Span) : Nat := span.start + span.length

/-- Spans of the given lengths, the first at a position. -/
def layOut : Nat → List Nat → List Span
  | _, [] => []
  | pos, length :: lengths => ⟨pos, length⟩ :: layOut (pos + length) lengths

@[simp] theorem length_layOut (pos : Nat) (lengths : List Nat) :
    (layOut pos lengths).length = lengths.length := by
  induction lengths generalizing pos with
  | nil => rfl
  | cons length lengths ih => rw [layOut, List.length_cons, ih, List.length_cons]

@[simp] theorem map_length_layOut (pos : Nat) (lengths : List Nat) :
    (layOut pos lengths).map Span.length = lengths := by
  induction lengths generalizing pos with
  | nil => rfl
  | cons length lengths ih => rw [layOut, List.map_cons, ih]

theorem head_layOut {pos : Nat} {lengths : List Nat} :
    ∀ span ∈ (layOut pos lengths).head?, span.start = pos := by
  cases lengths with
  | nil => exact fun _ h => absurd h (by simp [layOut])
  | cons length lengths =>
      intro span h
      cases Option.mem_some_iff.mp h
      rfl

/-- Each span starts where the one before it stops. -/
theorem consecutive_layOut (pos : Nat) (lengths : List Nat) :
    (layOut pos lengths).IsChain fun a b => a.stop = b.start := by
  induction lengths generalizing pos with
  | nil => exact .nil
  | cons length lengths ih =>
      refine List.isChain_cons.mpr ⟨fun span hspan => ?_, ih _⟩
      exact (head_layOut span hspan).symm

theorem mem_layOut {pos : Nat} {lengths : List Nat} :
    ∀ span ∈ layOut pos lengths, pos ≤ span.start ∧ span.stop ≤ pos + lengths.sum := by
  induction lengths generalizing pos with
  | nil => exact fun _ h => absurd h List.not_mem_nil
  | cons length lengths ih =>
      intro span h
      rw [List.sum_cons]
      cases List.mem_cons.mp h with
      | inl hfirst =>
          subst hfirst
          exact ⟨Nat.le_refl _, by simp only [Span.stop]; omega⟩
      | inr hrest =>
          obtain ⟨hlow, hhigh⟩ := ih span hrest
          exact ⟨by omega, by omega⟩

theorem disjoint_layOut (pos : Nat) (lengths : List Nat) :
    (layOut pos lengths).Pairwise fun a b => a.stop ≤ b.start := by
  induction lengths generalizing pos with
  | nil => exact .nil
  | cons length lengths ih => exact .cons (fun span hspan => (mem_layOut span hspan).1) (ih _)

end Spans
