import Mathlib.Data.List.Range

/-!
Loops that put something out in each turn.
A run is given by the states it goes through: a loop whose body leads from each of them
to the next puts out what these states say.
-/

namespace PlotLoops

universe u v

variable {State : Type u} {Out : Type v}

/-- `while (1) { out; if (done) break; body }`; none while `fuel` turns do not end it. -/
def untilLoop (done : State → Bool) (body : State → State) (out : State → Out) :
    Nat → State → Option (List Out)
  | 0, _ => none
  | fuel + 1, s =>
      if done s then some [out s]
      else (untilLoop done body out fuel (body s)).map (out s :: ·)

/-- `for (i < count) { out; body }` followed by one more `out`. -/
def countLoop (body : State → State) (out : State → Out) : Nat → State → List Out
  | 0, s => [out s]
  | count + 1, s => out s :: countLoop body out count (body s)

theorem countLoop_run {body : State → State} {out : State → Out} (count : Nat)
    (states : Nat → State) (h : ∀ i < count, body (states i) = states (i + 1)) :
    countLoop body out count (states 0) =
      (List.range (count + 1)).map fun i => out (states i) := by
  induction count generalizing states with
  | zero => rfl
  | succ count ih =>
      have hrest := ih (fun i => states (i + 1)) fun i hi => h (i + 1) (by omega)
      rw [countLoop, h 0 (Nat.succ_pos _), hrest, List.range_succ_eq_map (n := count + 1)]
      simp [Function.comp_def]

/-- `while (go) { out; body }`; none while `fuel` tests of `go` do not end it. -/
def whileLoop (go : State → Bool) (body : State → State) (out : State → Out) :
    Nat → State → Option (List Out)
  | 0, _ => none
  | fuel + 1, s =>
      if go s then (whileLoop go body out fuel (body s)).map (out s :: ·) else some []

/-- The states in which a `while` takes a turn. -/
inductive Turns (go : State → Bool) (body : State → State) : State → List State → Prop where
  | stop {s : State} : go s = false → Turns go body s []
  | turn {s : State} {states : List State} : go s = true → Turns go body (body s) states →
      Turns go body s (s :: states)

/-- The loop ends in the first state that is done, and takes one turn for each state. -/
theorem untilLoop_run {done : State → Bool} {body : State → State} {out : State → Out}
    (count : Nat) (states : Nat → State) (h : ∀ i < count, body (states i) = states (i + 1))
    (hgo : ∀ i < count, done (states i) = false) (hdone : done (states count) = true)
    (fuel : Nat) : untilLoop done body out fuel (states 0) =
      if count < fuel then some ((List.range (count + 1)).map fun i => out (states i))
      else none := by
  induction fuel generalizing count states with
  | zero => rfl
  | succ fuel ih =>
      cases count with
      | zero => simp [untilLoop, hdone]
      | succ count =>
          have hrest := ih count (fun i => states (i + 1)) (fun i hi => h (i + 1) (by omega))
            (fun i hi => hgo (i + 1) (by omega)) hdone
          rw [untilLoop, hgo 0 (Nat.succ_pos _), h 0 (Nat.succ_pos _), hrest,
            List.range_succ_eq_map (n := count + 1)]
          by_cases hfuel : count < fuel
          · simp [hfuel, Function.comp_def]
          · simp [hfuel]

theorem Turns.whileLoop_eq {go : State → Bool} {body : State → State} {s : State}
    {states : List State} (h : Turns go body s states) (out : State → Out) (fuel : Nat) :
    whileLoop go body out fuel s =
      if states.length < fuel then some (states.map out) else none := by
  induction h generalizing fuel with
  | stop hstop =>
      cases fuel with
      | zero => rfl
      | succ fuel => simp [whileLoop, hstop]
  | turn hgo _ ih =>
      cases fuel with
      | zero => rfl
      | succ fuel =>
          rw [whileLoop, if_pos hgo, ih]
          split <;> rename_i hfuel <;> simp [hfuel]

/-- A loop whose turns make a number smaller ends. -/
theorem exists_turns {go : State → Bool} {body : State → State} (variant : State → Nat)
    (decreases : ∀ s, go s = true → variant (body s) < variant s) (s : State) :
    ∃ states, Turns go body s states ∧ states.length ≤ variant s := by
  induction hn : variant s using Nat.strong_induction_on generalizing s with
  | h n ih =>
      subst hn
      cases hgo : go s with
      | false => exact ⟨[], .stop hgo, Nat.zero_le _⟩
      | true =>
          obtain ⟨states, hstates, hlength⟩ := ih _ (decreases s hgo) (body s) rfl
          exact ⟨s :: states, .turn hgo hstates, Nat.lt_of_le_of_lt hlength (decreases s hgo)⟩

namespace Turns

variable {go : State → Bool} {body : State → State} {s : State} {states : List State}

/-- What a turn keeps holds in every turn. -/
theorem invariant (h : Turns go body s states) (Inv : State → Prop) (hs : Inv s)
    (keep : ∀ t, Inv t → go t = true → Inv (body t)) : ∀ t ∈ states, Inv t ∧ go t = true := by
  induction h with
  | stop _ => exact fun _ ht => absurd ht List.not_mem_nil
  | turn hgo _ ih =>
      exact List.forall_mem_cons.mpr ⟨⟨hs, hgo⟩, ih (keep _ hs hgo)⟩

theorem head_eq (h : Turns go body s states) (hgo : go s = true) : states.head? = some s := by
  cases h with
  | stop hstop => exact absurd (hgo.symm.trans hstop) (by decide)
  | turn _ _ => rfl

theorem isChain (h : Turns go body s states) : states.IsChain fun t t' => t' = body t := by
  induction h with
  | stop _ => exact .nil
  | @turn s states _ hrest ih =>
      cases hrest with
      | stop _ => exact .singleton s
      | turn _ _ => exact .cons_cons rfl ih

theorem getLast_stops (h : Turns go body s states) :
    ∀ t ∈ states.getLast?, go (body t) = false := by
  induction h with
  | stop _ => exact fun _ ht => absurd ht (by simp)
  | @turn s states _ hrest ih =>
      cases hrest with
      | stop hstop =>
          intro t ht
          cases Option.mem_some_iff.mp ht
          exact hstop
      | turn _ _ => exact ih

end Turns
end PlotLoops
