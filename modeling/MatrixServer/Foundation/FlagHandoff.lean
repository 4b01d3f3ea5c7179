import Mathlib.Data.List.Basic

/-!
Handing pictures over under one flag.
A producer draws on its cells while the flag is down and raises it when a picture is done. A
consumer waits for the flag, copies the cells one by one, lowers the flag and shows its copy, and
the producer may draw again while it does. No picture is lost, none is shown twice, and none is
shown while it is drawn on; the consumer shows what is done within a bounded number of its own
steps.
-/

namespace FlagHandoff

universe u

variable {Cell : Type u}

inductive Producer where
  | waiting | drawing | ended
  deriving DecidableEq

inductive Consumer where
  | waiting | copying (next : Nat) | showing
  deriving DecidableEq

structure Handoff (Cell : Type u) where
  source : List Cell
  copy : List Cell
  flag : Bool := false
  producer : Producer := .waiting
  consumer : Consumer := .waiting
  /-- The pictures that were done, and those that were shown. -/
  done : List (List Cell) := []
  shown : List (List Cell) := []

inductive Event (Cell : Type u) where
  | begin
  | draw (source : List Cell)
  | finish (continues : Bool)
  | start
  | copy
  | lower
  | present

/-- The steps that the consumer takes. -/
def Event.consumes : Event Cell → Bool
  | .start | .copy | .lower | .present => true
  | .begin | .draw _ | .finish _ => false

namespace Handoff

def step (h : Handoff Cell) : Event Cell → Option (Handoff Cell)
  | .begin =>
      if h.producer = .waiting ∧ h.flag = false then some { h with producer := .drawing } else none
  | .draw source =>
      if h.producer = .drawing ∧ source.length = h.source.length then some { h with source }
      else none
  | .finish continues =>
      if h.producer = .drawing then
        some
          { h with
            flag := true
            producer := if continues then .waiting else .ended
            done := h.done ++ [h.source] }
      else none
  | .start =>
      if h.consumer = .waiting ∧ h.flag = true then some { h with consumer := .copying 0 } else none
  | .copy =>
      match h.consumer with
      | .copying next =>
          h.source[next]?.map fun cell =>
            { h with copy := h.copy.set next cell, consumer := .copying (next + 1) }
      | _ => none
  | .lower =>
      if h.consumer = .copying h.source.length then
        some { h with flag := false, consumer := .showing }
      else none
  | .present =>
      if h.consumer = .showing then
        some { h with consumer := .waiting, shown := h.shown ++ [h.copy] }
      else none

/-- The picture that the consumer is about to show. -/
def inHand (h : Handoff Cell) : List (List Cell) := if h.consumer = .showing then [h.copy] else []

/-- The picture that waits for the consumer. -/
def waiting (h : Handoff Cell) : List (List Cell) := if h.flag then [h.source] else []

structure Inv (h : Handoff Cell) : Prop where
  length : h.copy.length = h.source.length
  drawing : h.producer = .drawing → h.flag = false
  copying : ∀ next, h.consumer = .copying next →
    h.flag = true ∧ next ≤ h.source.length ∧ h.copy.take next = h.source.take next
  account : h.done = h.shown ++ h.inHand ++ h.waiting

theorem take_set_succ {copy source : List Cell} {next : Nat} {cell : Cell}
    (hlength : copy.length = source.length) (hcell : source[next]? = some cell)
    (htake : copy.take next = source.take next) :
    (copy.set next cell).take (next + 1) = source.take (next + 1) := by
  obtain ⟨hlt, rfl⟩ := List.getElem?_eq_some_iff.mp hcell
  rw [List.take_add_one, List.take_add_one, List.take_set_of_le (Nat.le_refl _), htake]
  simp [hlength, hlt]

variable {h h' : Handoff Cell}

theorem Inv.step (hinv : h.Inv) {e : Event Cell}
    (hstep : h.step e = some h') : h'.Inv := by
  cases e with
  | begin =>
      simp only [Handoff.step, Option.ite_none_right_eq_some, Option.some.injEq] at hstep
      obtain ⟨⟨-, hflag⟩, rfl⟩ := hstep
      exact ⟨hinv.length, fun _ => hflag, hinv.copying, hinv.account⟩
  | draw source =>
      simp only [Handoff.step, Option.ite_none_right_eq_some, Option.some.injEq] at hstep
      obtain ⟨⟨hproducer, hlength⟩, rfl⟩ := hstep
      have hflag := hinv.drawing hproducer
      refine ⟨hinv.length.trans hlength.symm, hinv.drawing, fun next hnext => ?_, ?_⟩
      · have hraised := (hinv.copying next hnext).1
        rw [hflag] at hraised
        cases hraised
      · have haccount := hinv.account
        rw [waiting, hflag] at haccount
        rw [waiting, hflag]
        exact haccount
  | finish continues =>
      simp only [Handoff.step, Option.ite_none_right_eq_some, Option.some.injEq] at hstep
      obtain ⟨hproducer, rfl⟩ := hstep
      have hflag := hinv.drawing hproducer
      refine ⟨hinv.length, fun hdrawing => ?_, fun next hnext => ?_, ?_⟩
      · cases continues <;> cases hdrawing
      · have hraised := (hinv.copying next hnext).1
        rw [hflag] at hraised
        cases hraised
      · have haccount := hinv.account
        rw [waiting, hflag] at haccount
        simp only [Bool.false_eq_true, if_false, List.append_nil] at haccount
        simp only [haccount, waiting, if_true]
        rfl
  | start =>
      simp only [Handoff.step, Option.ite_none_right_eq_some, Option.some.injEq] at hstep
      obtain ⟨⟨hconsumer, hflag⟩, rfl⟩ := hstep
      refine ⟨hinv.length, hinv.drawing, fun next hnext => ?_, ?_⟩
      · cases hnext
        exact ⟨hflag, Nat.zero_le _, rfl⟩
      · have haccount := hinv.account
        rw [inHand, hconsumer] at haccount
        exact haccount
  | copy =>
      simp only [Handoff.step] at hstep
      split at hstep
      · rename_i next hconsumer
        obtain ⟨cell, hcell, rfl⟩ := Option.map_eq_some_iff.mp hstep
        obtain ⟨hflag, hle, htake⟩ := hinv.copying next hconsumer
        refine ⟨by simpa using hinv.length, hinv.drawing, fun place hplace => ?_, ?_⟩
        · cases hplace
          have hlt := (List.getElem?_eq_some_iff.mp hcell).1
          exact ⟨hflag, hlt, take_set_succ hinv.length hcell htake⟩
        · have haccount := hinv.account
          rw [inHand, hconsumer] at haccount
          exact haccount
      · cases hstep
  | lower =>
      simp only [Handoff.step, Option.ite_none_right_eq_some, Option.some.injEq] at hstep
      obtain ⟨hconsumer, rfl⟩ := hstep
      obtain ⟨hflag, -, htake⟩ := hinv.copying _ hconsumer
      have hcopied : h.copy = h.source := by
        rw [List.take_length, ← hinv.length, List.take_length] at htake
        exact htake
      refine ⟨hinv.length, fun _ => rfl, fun next hnext => (by cases hnext), ?_⟩
      have haccount := hinv.account
      rw [inHand, hconsumer, waiting, hflag] at haccount
      simp only [inHand, waiting, hcopied, if_true]
      simpa using haccount
  | present =>
      simp only [Handoff.step, Option.ite_none_right_eq_some, Option.some.injEq] at hstep
      obtain ⟨hconsumer, rfl⟩ := hstep
      refine ⟨hinv.length, hinv.drawing, fun next hnext => (by cases hnext), ?_⟩
      have haccount := hinv.account
      rw [inHand, hconsumer] at haccount
      simpa [inHand, waiting] using haccount

theorem length_inHand_le : h.inHand.length ≤ 1 := by
  rw [inHand]
  split <;> simp

theorem length_waiting_le : h.waiting.length ≤ 1 := by
  rw [waiting]
  split <;> simp

/-- The pictures shown are the first of those done, and at most two are behind. -/
theorem Inv.shown (hinv : h.Inv) :
    h.shown <+: h.done ∧ h.done.length ≤ h.shown.length + 2 := by
  have hhand := h.length_inHand_le
  have hwaiting := h.length_waiting_le
  rw [hinv.account]
  refine ⟨⟨h.inHand ++ h.waiting, (List.append_assoc _ _ _).symm⟩, ?_⟩
  simp only [List.length_append]
  omega

/-- The steps of the consumer until it has shown `count` pictures. -/
def stepsUntilShown (h : Handoff Cell) (count : Nat) : Nat :=
  if count ≤ h.shown.length then 0
  else
    match h.consumer with
    | .waiting => h.source.length + 3
    | .copying next => h.source.length - next + 2
    | .showing => if count = h.shown.length + 1 then 1 else h.source.length + 4

theorem stepsUntilShown_eq_zero {count : Nat} :
    h.stepsUntilShown count = 0 ↔ count ≤ h.shown.length := by
  rw [stepsUntilShown]
  refine ⟨fun hzero => ?_, fun hle => if_pos hle⟩
  split at hzero
  · assumption
  · split at hzero
    · omega
    · omega
    · split at hzero <;> omega

theorem stepsUntilShown_le (count : Nat) : h.stepsUntilShown count ≤ h.source.length + 4 := by
  rw [stepsUntilShown]
  split
  · omega
  · split
    · omega
    · omega
    · split <;> omega

/-- A consumer that waits while a picture is left finds the flag raised. -/
theorem Inv.raised (hinv : h.Inv) (hconsumer : h.consumer = .waiting)
    (hleft : h.shown.length < h.done.length) : h.flag = true := by
  cases hflag : h.flag with
  | true => rfl
  | false =>
      have hlength := congrArg List.length hinv.account
      simp [inHand, hconsumer, waiting, hflag] at hlength
      omega

/-- A consumer that does not hold a finished copy has at most one picture to show. -/
theorem Inv.done_le (hinv : h.Inv) (hconsumer : h.consumer ≠ .showing) :
    h.done.length ≤ h.shown.length + 1 := by
  have hwaiting := h.length_waiting_le
  have hlength := congrArg List.length hinv.account
  simp only [inHand, hconsumer, if_false, List.append_nil, List.length_append] at hlength
  omega

/-- A step of the producer leaves the consumer as far as it is; a step of the consumer takes it
nearer to showing what is done. -/
theorem Inv.nearer (hinv : h.Inv) {count : Nat} (hcount : count ≤ h.done.length) {e : Event Cell}
    (hstep : h.step e = some h') : count ≤ h'.done.length ∧
      h'.stepsUntilShown count ≤ h.stepsUntilShown count - e.consumes.toNat := by
  cases e with
  | begin =>
      simp only [Handoff.step, Option.ite_none_right_eq_some, Option.some.injEq] at hstep
      obtain ⟨-, rfl⟩ := hstep
      exact ⟨hcount, Nat.le_refl _⟩
  | draw source =>
      simp only [Handoff.step, Option.ite_none_right_eq_some, Option.some.injEq] at hstep
      obtain ⟨⟨-, hlength⟩, rfl⟩ := hstep
      refine ⟨hcount, ?_⟩
      simp only [stepsUntilShown, hlength]
      exact Nat.le_refl _
  | finish continues =>
      simp only [Handoff.step, Option.ite_none_right_eq_some, Option.some.injEq] at hstep
      obtain ⟨-, rfl⟩ := hstep
      refine ⟨?_, Nat.le_refl _⟩
      simp only [List.length_append]
      omega
  | start =>
      simp only [Handoff.step, Option.ite_none_right_eq_some, Option.some.injEq] at hstep
      obtain ⟨⟨hconsumer, -⟩, rfl⟩ := hstep
      refine ⟨hcount, ?_⟩
      simp only [stepsUntilShown, hconsumer, Event.consumes, Bool.toNat_true]
      split <;> omega
  | copy =>
      simp only [Handoff.step] at hstep
      split at hstep
      · rename_i next hconsumer
        obtain ⟨cell, hcell, rfl⟩ := Option.map_eq_some_iff.mp hstep
        have hlt := (List.getElem?_eq_some_iff.mp hcell).1
        refine ⟨hcount, ?_⟩
        simp only [stepsUntilShown, hconsumer, Event.consumes, Bool.toNat_true]
        split <;> omega
      · cases hstep
  | lower =>
      simp only [Handoff.step, Option.ite_none_right_eq_some, Option.some.injEq] at hstep
      obtain ⟨hconsumer, rfl⟩ := hstep
      have hle := hinv.done_le (by rw [hconsumer]; simp)
      refine ⟨hcount, ?_⟩
      simp only [stepsUntilShown, hconsumer, Event.consumes, Bool.toNat_true]
      split
      · omega
      · rw [if_pos (by omega)]
        omega
  | present =>
      simp only [Handoff.step, Option.ite_none_right_eq_some, Option.some.injEq] at hstep
      obtain ⟨hconsumer, rfl⟩ := hstep
      refine ⟨hcount, ?_⟩
      simp only [stepsUntilShown, hconsumer, Event.consumes, Bool.toNat_true, List.length_append,
        List.length_singleton]
      split
      · omega
      · rw [if_neg (by omega), if_neg (by omega)]
        omega

end Handoff
end FlagHandoff
