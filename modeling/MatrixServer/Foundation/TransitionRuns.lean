import Mathlib.Data.Option.Basic

/-!
Executable transition systems and their runs.
A step is a partial function of the state and an event, so a schedule can be
replayed. A guard restricts the events a run may take in a state; the states
reached under a guard carry every property that the guarded steps preserve.
-/

namespace TransitionRuns

universe u v

structure TransitionSystem (State : Type u) (Event : Type v) where
  initial : State
  step : State → Event → Option State

namespace TransitionSystem

variable {State : Type u} {Event : Type v}

/-- The states of the runs all of whose steps meet `guard` in the state they are taken in. -/
inductive ReachableUnder (M : TransitionSystem State Event) (guard : State → Event → Prop) :
    State → Prop where
  | initial : ReachableUnder M guard M.initial
  | step {s s' : State} {e : Event} : ReachableUnder M guard s → guard s e →
      M.step s e = some s' → ReachableUnder M guard s'

def Reachable (M : TransitionSystem State Event) : State → Prop :=
  M.ReachableUnder fun _ _ => True

/-- Replay a schedule; a disabled event, or one the guard forbids, makes the replay fail. -/
def replayUnder (M : TransitionSystem State Event) (guard : State → Event → Prop)
    [∀ s e, Decidable (guard s e)] : State → List Event → Option State
  | s, [] => some s
  | s, e :: events =>
      if guard s e then (M.step s e).bind fun s' => M.replayUnder guard s' events else none

def replay (M : TransitionSystem State Event) : State → List Event → Option State :=
  M.replayUnder fun _ _ => True

variable {M : TransitionSystem State Event}

/-- The invariant rule: what holds initially and is kept by every guarded step
holds in every state reached under the guard. -/
theorem ReachableUnder.invariant {guard : State → Event → Prop}
    (Inv : State → Prop) (base : Inv M.initial)
    (keep : ∀ s e s', Inv s → guard s e → M.step s e = some s' → Inv s')
    {s : State} (h : M.ReachableUnder guard s) : Inv s := by
  induction h with
  | initial => exact base
  | step _ hguard hstep ih => exact keep _ _ _ ih hguard hstep

theorem ReachableUnder.mono {guard guard' : State → Event → Prop}
    (imp : ∀ s e, guard s e → guard' s e) {s : State}
    (h : M.ReachableUnder guard s) : M.ReachableUnder guard' s := by
  induction h with
  | initial => exact .initial
  | step _ hguard hstep ih => exact .step ih (imp _ _ hguard) hstep

theorem ReachableUnder.reachable {guard : State → Event → Prop} {s : State}
    (h : M.ReachableUnder guard s) : M.Reachable s :=
  h.mono fun _ _ _ => trivial

/-- What every guarded step keeps, a replay keeps, from whatever state it starts. -/
theorem replayUnder_keeps {guard : State → Event → Prop} [∀ s e, Decidable (guard s e)]
    {P : State → Prop} (keep : ∀ s e s', P s → guard s e → M.step s e = some s' → P s')
    (events : List Event) {s s' : State} (hs : P s)
    (hrun : M.replayUnder guard s events = some s') : P s' := by
  induction events generalizing s with
  | nil =>
      cases Option.some.inj hrun
      exact hs
  | cons e events ih =>
      simp only [replayUnder] at hrun
      split at hrun
      · rename_i hguard
        obtain ⟨s₁, hstep, hrest⟩ := Option.bind_eq_some_iff.mp hrun
        exact ih (keep _ _ _ hs hguard hstep) hrest
      · cases hrun

theorem ReachableUnder.of_replayUnder {guard : State → Event → Prop}
    [∀ s e, Decidable (guard s e)] (events : List Event) {s : State}
    (hrun : M.replayUnder guard M.initial events = some s) : M.ReachableUnder guard s :=
  replayUnder_keeps (fun _ _ _ h hguard hstep => h.step hguard hstep) events .initial hrun

theorem Reachable.of_replay (events : List Event) {s : State}
    (hrun : M.replay M.initial events = some s) : M.Reachable s :=
  ReachableUnder.of_replayUnder events hrun

/-- A schedule whose replay passes a test reaches a state that passes it. -/
theorem ReachableUnder.of_test (guard : State → Event → Prop) [∀ s e, Decidable (guard s e)]
    (events : List Event) (test : State → Bool)
    (hrun : (M.replayUnder guard M.initial events).any test = true) :
    ∃ s, M.ReachableUnder guard s ∧ test s = true := by
  obtain ⟨s, hs, htest⟩ := (Option.any_eq_true test _).mp hrun
  exact ⟨s, .of_replayUnder events hs, htest⟩

theorem Reachable.of_test (events : List Event) (test : State → Bool)
    (hrun : (M.replay M.initial events).any test = true) : ∃ s, M.Reachable s ∧ test s = true :=
  ReachableUnder.of_test _ events test hrun

end TransitionSystem
end TransitionRuns
