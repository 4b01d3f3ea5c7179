import Mathlib.Logic.Function.Basic
import Mathlib.Logic.Relation

/-!
Threads that work through lists of stages over one shared state.
A stage is one atomic step of its thread: it may be blocked, it changes the
shared state, and it may put further stages before those that the thread has
left. The stages of different threads interleave freely; a thread with nothing
left to do may start a new program.
-/

namespace ThreadPrograms

universe u v w x

structure Threads (Shared : Type u) (Thread : Type v) (Stage : Type w) where
  shared : Shared
  stages : Thread → List Stage := fun _ => []

/-- What a stage makes of the shared state and which stages it puts first; none when blocked. -/
abbrev StageRun (Shared : Type u) (Thread : Type v) (Stage : Type w) :=
  Shared → Thread → Stage → Option (Shared × List Stage)

namespace Threads

variable {Shared : Type u} {Thread : Type v} {Stage : Type w} [DecidableEq Thread]

def start (st : Threads Shared Thread Stage) (thread : Thread) (program : List Stage) :
    Option (Threads Shared Thread Stage) :=
  match st.stages thread with
  | [] => some { st with stages := Function.update st.stages thread program }
  | _ :: _ => none

def advance (run : StageRun Shared Thread Stage) (st : Threads Shared Thread Stage)
    (thread : Thread) : Option (Threads Shared Thread Stage) :=
  match st.stages thread with
  | [] => none
  | stage :: rest =>
      (run st.shared thread stage).map fun done =>
        { shared := done.1, stages := Function.update st.stages thread (done.2 ++ rest) }

variable {run : StageRun Shared Thread Stage} {st st' : Threads Shared Thread Stage}
  {thread : Thread}

theorem start_cases {program : List Stage} (h : st.start thread program = some st') :
    st.stages thread = [] ∧
      st' = { st with stages := Function.update st.stages thread program } := by
  simp only [start] at h
  split at h
  · rename_i hidle
    exact ⟨hidle, (Option.some.inj h).symm⟩
  · cases h

theorem advance_cases (h : st.advance run thread = some st') :
    ∃ stage rest done, st.stages thread = stage :: rest ∧
      run st.shared thread stage = some done ∧
      st' = { shared := done.1, stages := Function.update st.stages thread (done.2 ++ rest) } := by
  simp only [advance] at h
  split at h
  · cases h
  · rename_i stage rest hstages
    obtain ⟨done, hdone, rfl⟩ := Option.map_eq_some_iff.mp h
    exact ⟨stage, rest, done, hstages, hdone, rfl⟩

theorem advance_eq {stage : Stage} {rest : List Stage} {done : Shared × List Stage}
    (hstages : st.stages thread = stage :: rest) (hdone : run st.shared thread stage = some done) :
    st.advance run thread =
      some { shared := done.1, stages := Function.update st.stages thread (done.2 ++ rest) } := by
  simp only [advance, hstages, hdone, Option.map_some]

/-- A property of the next stage of every thread that programs have and stages leave. -/
theorem stages_update {P : Thread → List Stage → Prop} (h : ∀ other, P other (st.stages other))
    {stages : List Stage} (hnew : P thread stages) (other : Thread) :
    P other (Function.update st.stages thread stages other) := by
  by_cases heq : other = thread
  · subst heq
    rwa [Function.update_self]
  · rw [Function.update_of_ne heq]
    exact h other

end Threads

/-- A thread that takes these stages alone, from one shared state to another. -/
inductive Completes {Shared : Type u} {Thread : Type v} {Stage : Type w}
    (run : StageRun Shared Thread Stage) (thread : Thread) :
    Shared → List Stage → Shared → Prop where
  | nil (s : Shared) : Completes run thread s [] s
  | cons {s s' : Shared} {stage : Stage} {rest : List Stage} {done : Shared × List Stage} :
      run s thread stage = some done → Completes run thread done.1 (done.2 ++ rest) s' →
      Completes run thread s (stage :: rest) s'

namespace Completes

variable {Shared : Type u} {Thread : Type v} {Stage : Type w} {run : StageRun Shared Thread Stage}
  {thread : Thread}

theorem append {s s' s'' : Shared} {stages rest : List Stage}
    (h : Completes run thread s stages s') (hrest : Completes run thread s' rest s'') :
    Completes run thread s (stages ++ rest) s'' := by
  induction h with
  | nil s => exact hrest
  | cons hdone _ ih =>
      rw [List.cons_append]
      refine .cons hdone ?_
      rw [← List.append_assoc]
      exact ih hrest

variable [DecidableEq Thread]

theorem advances_from {s s' : Shared} {program : List Stage}
    (h : Completes run thread s program s') (stages : Thread → List Stage)
    (hstages : stages thread = program) :
    Relation.ReflTransGen (fun st st' => Threads.advance run st thread = some st')
      { shared := s, stages } { shared := s', stages := Function.update stages thread [] } := by
  induction h generalizing stages with
  | nil s => rw [← hstages, Function.update_eq_self]
  | @cons s s' stage rest done hdone _ ih =>
      have hnext : Threads.advance run { shared := s, stages } thread = some _ :=
        Threads.advance_eq hstages hdone
      have hrun := ih (Function.update stages thread (done.2 ++ rest)) (Function.update_self ..)
      rw [Function.update_idem] at hrun
      exact .head hnext hrun

end Completes
end ThreadPrograms
