import MatrixServer.Foundation.TransitionRuns

/-!
Refinement of runs.
A step of a concrete system means some actions of an abstract one, often none. When
the actions of every step can be taken from every related abstract state, the actions
of a whole run replay on the abstract system, and lead to a related state.
-/

namespace TransitionRuns
namespace TransitionSystem

universe u v w x

variable {State : Type u} {Event : Type v} {Abstract : Type w} {Action : Type x}
  {M : TransitionSystem State Event} {A : TransitionSystem Abstract Action}

/-- A run under a guard has led to a state, and its steps meant these actions. -/
inductive Means (M : TransitionSystem State Event) (guard : State → Event → Prop)
    (meaning : State → Event → List Action) : State → List Action → Prop where
  | initial : Means M guard meaning M.initial []
  | step {s s' : State} {e : Event} {actions : List Action} : Means M guard meaning s actions →
      guard s e → M.step s e = some s' → Means M guard meaning s' (actions ++ meaning s e)

section Means
variable {guard : State → Event → Prop} {meaning : State → Event → List Action} {s : State}
  {actions : List Action}

theorem Means.reachableUnder (h : M.Means guard meaning s actions) : M.ReachableUnder guard s := by
  induction h with
  | initial => exact .initial
  | step _ hguard hstep ih => exact .step ih hguard hstep

theorem ReachableUnder.means (h : M.ReachableUnder guard s) :
    ∃ actions, M.Means guard meaning s actions := by
  induction h with
  | initial => exact ⟨[], .initial⟩
  | step _ hguard hstep ih =>
      obtain ⟨actions, hmeans⟩ := ih
      exact ⟨_, hmeans.step hguard hstep⟩

/-- What holds of all actions that steps mean holds of the actions of a run. -/
theorem Means.forall_actions {P : Action → Prop} (keep : ∀ s e, ∀ action ∈ meaning s e, P action)
    (h : M.Means guard meaning s actions) : ∀ action ∈ actions, P action := by
  induction h with
  | initial => exact fun _ hmem => False.elim (List.not_mem_nil hmem)
  | step _ _ _ ih =>
      intro action hmem
      exact (List.mem_append.mp hmem).elim (ih action) (keep _ _ action)

end Means

theorem replay_cons {a a' : Abstract} {action : Action} {actions : List Action} :
    A.replay a (action :: actions) = some a' ↔
      ∃ middle, A.step a action = some middle ∧ A.replay middle actions = some a' := by
  simp only [replay, replayUnder, if_true]
  exact Option.bind_eq_some_iff

theorem replay_append {a a' : Abstract} {front back : List Action}
    (hfront : A.replay a front = some a') : A.replay a (front ++ back) = A.replay a' back := by
  induction front generalizing a with
  | nil =>
      cases hfront
      rfl
  | cons action front ih =>
      obtain ⟨middle, hstep, hrest⟩ := replay_cons.mp hfront
      simp only [replay, replayUnder, List.cons_append, if_true, hstep, Option.bind_some]
      exact ih hrest

@[simp] theorem replay_nil (a : Abstract) : A.replay a [] = some a := rfl

theorem replay_singleton (a : Abstract) (action : Action) :
    A.replay a [action] = A.step a action := by
  simp only [replay, replayUnder, if_true]
  exact Option.bind_fun_some _

/-- The refinement rule. -/
theorem Means.refines {guard : State → Event → Prop} {meaning : State → Event → List Action}
    (R : State → Abstract → Prop) (base : R M.initial A.initial)
    (keep : ∀ s e s' a, R s a → guard s e → M.step s e = some s' →
      ∃ a', A.replay a (meaning s e) = some a' ∧ R s' a')
    {s : State} {actions : List Action} (h : M.Means guard meaning s actions) :
    ∃ a, A.replay A.initial actions = some a ∧ R s a := by
  induction h with
  | initial => exact ⟨A.initial, rfl, base⟩
  | step _ hguard hstep ih =>
      obtain ⟨a, hreplay, hrelated⟩ := ih
      obtain ⟨a', hactions, hrelated'⟩ := keep _ _ _ a hrelated hguard hstep
      exact ⟨a', (replay_append hreplay).trans hactions, hrelated'⟩

end TransitionSystem
end TransitionRuns
