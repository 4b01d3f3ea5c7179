import Mathlib.Data.List.Induction

/-!
Edge-triggered latches.
A latch keeps a level and, until it is read or cleared, the last value at which the level left
rest. What it holds back is told by the history of the signals alone: the last rise that
nothing consumed.
-/

namespace EdgeLatch

universe u v

structure Latch (α : Type u) where
  level : α
  press : α
  deriving DecidableEq

inductive Signal (α : Type u) where
  | update (value : α)
  | read
  | clear
  deriving DecidableEq

variable {α : Type u}

def Signal.value? : Signal α → Option α
  | .update value => some value
  | .read | .clear => none

def Signal.Consumes : Signal α → Prop
  | .update _ => False
  | .read | .clear => True

namespace Latch

variable (quiet : α → Bool) (rest : α)

def update (latch : Latch α) (value : α) : Latch α :=
  { level := value
    press := if quiet latch.level = true ∧ quiet value = false then value else latch.press }

/-- The press is reported once. -/
def read (latch : Latch α) : α × Latch α :=
  if quiet latch.press then (rest, latch) else (latch.press, { latch with press := rest })

def clear (latch : Latch α) : Latch α := { latch with press := rest }

def apply (latch : Latch α) : Signal α → Latch α
  | .update value => latch.update quiet value
  | .read => (latch.read quiet rest).2
  | .clear => latch.clear rest

/-- What a read would report. -/
def pending (latch : Latch α) : Option α := if quiet latch.press then none else some latch.press

end Latch

section History

variable {Event : Type v} (signal : Event → Option (Signal α)) (quiet : α → Bool) (rest : α)

/-- The latch after a history of events, some of which are signals to it. -/
def after (latch : Latch α) (history : List Event) : Latch α :=
  history.foldl (fun latch e => (signal e).elim latch (latch.apply quiet rest)) latch

/-- The value of the last update. -/
def levelAfter (start : α) (history : List Event) : α :=
  (history.filterMap fun e => (signal e).bind Signal.value?).getLast?.getD start

/-- An update after some events makes the level leave rest. -/
def Rises (start : α) (before : List Event) (value : α) : Prop :=
  quiet (levelAfter signal start before) = true ∧ quiet value = false

def Unconsumed (later : List Event) : Prop :=
  ∀ e ∈ later, ∀ s, signal e = some s → ¬ s.Consumes

/-- Some update made the level rise, and nothing consumed it since. -/
def RoseSince (start : α) (history : List Event) : Prop :=
  ∃ before e later value, history = before ++ e :: later ∧ signal e = some (.update value) ∧
    Rises signal quiet start before value ∧ Unconsumed signal later

/-- The last update that made the level rise, when nothing consumed it since. -/
def LastRise (start : α) (history : List Event) (value : α) : Prop :=
  ∃ before e later, history = before ++ e :: later ∧ signal e = some (.update value) ∧
    Rises signal quiet start before value ∧ Unconsumed signal later ∧
    ∀ between e' last value', later = between ++ e' :: last → signal e' = some (.update value') →
      ¬ Rises signal quiet start (before ++ e :: between) value'

theorem concat_eq_split {history before later : List Event} {e x : Event} :
    history ++ [e] = before ++ x :: later ↔
      (later = [] ∧ before = history ∧ x = e) ∨
        ∃ later', later = later' ++ [e] ∧ history = before ++ x :: later' := by
  constructor
  · intro heq
    cases later.eq_nil_or_concat with
    | inl hnil =>
        subst hnil
        obtain ⟨hbefore, hlast⟩ := List.append_inj' heq rfl
        exact .inl ⟨rfl, hbefore.symm, (List.singleton_inj.mp hlast).symm⟩
    | inr hconcat =>
        obtain ⟨later', last, rfl⟩ := hconcat
        rw [List.concat_eq_append, ← List.cons_append, ← List.append_assoc] at heq
        obtain ⟨hhistory, hlast⟩ := List.append_inj' heq rfl
        cases List.singleton_inj.mp hlast
        exact .inr ⟨later', List.concat_eq_append, hhistory⟩
  · rintro (⟨rfl, rfl, rfl⟩ | ⟨later', rfl, rfl⟩)
    · rfl
    · simp

variable {signal quiet rest} {start : α}

theorem levelAfter_concat (history : List Event) (e : Event) :
    levelAfter signal start (history ++ [e]) =
      ((signal e).bind Signal.value?).getD (levelAfter signal start history) := by
  cases h : (signal e).bind Signal.value? with
  | none => simp [levelAfter, h]
  | some value => simp [levelAfter, h]

theorem unconsumed_concat {later : List Event} {e : Event} :
    Unconsumed signal (later ++ [e]) ↔
      Unconsumed signal later ∧ ∀ s, signal e = some s → ¬ s.Consumes := by
  simp only [Unconsumed, List.forall_mem_append, List.forall_mem_singleton]

theorem roseSince_concat (history : List Event) (e : Event) :
    RoseSince signal quiet start (history ++ [e]) ↔
      (∃ value, signal e = some (.update value) ∧ Rises signal quiet start history value) ∨
        (RoseSince signal quiet start history ∧ ∀ s, signal e = some s → ¬ s.Consumes) := by
  simp only [RoseSince, concat_eq_split]
  constructor
  · rintro ⟨before, x, later, value, ⟨rfl, rfl, rfl⟩ | ⟨later', rfl, rfl⟩, hsignal, hrises, hnone⟩
    · exact .inl ⟨value, hsignal, hrises⟩
    · obtain ⟨hlater, hlast⟩ := unconsumed_concat.mp hnone
      exact .inr ⟨⟨before, x, later', value, rfl, hsignal, hrises, hlater⟩, hlast⟩
  · rintro (⟨value, hsignal, hrises⟩ |
      ⟨⟨before, x, later, value, rfl, hsignal, hrises, hlater⟩, hlast⟩)
    · exact ⟨history, e, [], value, .inl ⟨rfl, rfl, rfl⟩, hsignal, hrises, by simp [Unconsumed]⟩
    · exact ⟨before, x, later ++ [e], value, .inr ⟨later, rfl, rfl⟩, hsignal, hrises,
        unconsumed_concat.mpr ⟨hlater, hlast⟩⟩

/-- The last rise goes on being the last one until the level rises again. -/
theorem lastRise_concat (history : List Event) (e : Event) (value : α) :
    LastRise signal quiet start (history ++ [e]) value ↔
      (signal e = some (.update value) ∧ Rises signal quiet start history value) ∨
        (LastRise signal quiet start history value ∧
          (∀ s, signal e = some s → ¬ s.Consumes) ∧
          ∀ value', signal e = some (.update value') →
            ¬ Rises signal quiet start history value') := by
  simp only [LastRise, concat_eq_split]
  constructor
  · rintro ⟨before, x, later, ⟨rfl, rfl, rfl⟩ | ⟨later', rfl, rfl⟩, hsignal, hrises, hnone, hno⟩
    · exact .inl ⟨hsignal, hrises⟩
    · obtain ⟨hlater, hlast⟩ := unconsumed_concat.mp hnone
      refine .inr ⟨⟨before, x, later', rfl, hsignal, hrises, hlater, ?_⟩, hlast, ?_⟩
      · intro between e' last value' hsplit hupdate
        exact hno between e' (last ++ [e]) value' (by rw [hsplit]; simp) hupdate
      · intro value' hupdate
        exact hno later' e [] value' rfl hupdate
  · rintro (⟨hsignal, hrises⟩ |
      ⟨⟨before, x, later, rfl, hsignal, hrises, hlater, hno⟩, hlast, hrise⟩)
    · exact ⟨history, e, [], .inl ⟨rfl, rfl, rfl⟩, hsignal, hrises, by simp [Unconsumed],
        by simp⟩
    · refine ⟨before, x, later ++ [e], .inr ⟨later, rfl, rfl⟩, hsignal, hrises,
        unconsumed_concat.mpr ⟨hlater, hlast⟩, ?_⟩
      intro between e' last value' hsplit hupdate
      obtain ⟨rfl, rfl, rfl⟩ | ⟨last', rfl, hlater'⟩ := concat_eq_split.mp hsplit
      · exact hrise value' hupdate
      · exact hno between e' last' value' hlater' hupdate

theorem after_concat (latch : Latch α) (history : List Event) (e : Event) :
    after signal quiet rest latch (history ++ [e]) =
      (signal e).elim (after signal quiet rest latch history)
        ((after signal quiet rest latch history).apply quiet rest) := by
  rw [after, List.foldl_append]
  rfl

theorem level_after (latch : Latch α) (history : List Event) :
    (after signal quiet rest latch history).level = levelAfter signal latch.level history := by
  induction history using List.reverseRecOn with
  | nil => rfl
  | append_singleton history e ih =>
      rw [after_concat, levelAfter_concat, ← ih]
      cases signal e with
      | none => rfl
      | some s =>
          cases s with
          | update value | clear => rfl
          | read =>
              simp only [Option.elim, Latch.apply, Latch.read, Option.bind_some, Signal.value?]
              split <;> rfl

theorem pending_update (latch : Latch α) (value : α) :
    (latch.update quiet value).pending quiet =
      if quiet latch.level = true ∧ quiet value = false then some value
      else latch.pending quiet := by
  simp only [Latch.update, Latch.pending]
  split
  · rename_i hrise
    rw [hrise.2]
    rfl
  · rfl

theorem pending_read (hrest : quiet rest = true) (latch : Latch α) :
    (latch.read quiet rest).1 = (latch.pending quiet).getD rest ∧
      (latch.read quiet rest).2.pending quiet = none := by
  cases hpress : quiet latch.press with
  | true => simp [Latch.read, Latch.pending, hpress]
  | false => simp [Latch.read, Latch.pending, hpress, hrest]

theorem read_eq_iff (hrest : quiet rest = true) (latch : Latch α) {value : α}
    (hvalue : quiet value = false) :
    (latch.read quiet rest).1 = value ↔ latch.pending quiet = some value := by
  rw [(pending_read hrest latch).1]
  cases latch.pending quiet with
  | some press => simp
  | none =>
      refine iff_of_false (fun hsame => ?_) (by simp)
      rw [← hsame, Option.getD_none, hrest] at hvalue
      exact absurd hvalue (by decide)

/-- A read is out of rest just when something is held back. -/
theorem read_quiet_iff (hrest : quiet rest = true) (latch : Latch α) :
    quiet (latch.read quiet rest).1 = false ↔ ∃ value, latch.pending quiet = some value := by
  cases hpress : quiet latch.press with
  | true => simp [Latch.read, Latch.pending, hpress, hrest]
  | false => simp [Latch.read, Latch.pending, hpress]

theorem pending_clear (hrest : quiet rest = true) (latch : Latch α) :
    (latch.clear rest).pending quiet = none := if_pos hrest

/-- What a latch that held nothing back holds back after a history. -/
theorem pending_after (hrest : quiet rest = true) (latch : Latch α)
    (hlatch : latch.pending quiet = none) (history : List Event) (value : α) :
    (after signal quiet rest latch history).pending quiet = some value ↔
      LastRise signal quiet latch.level history value := by
  induction history using List.reverseRecOn with
  | nil =>
      rw [after, List.foldl_nil, hlatch]
      simp [LastRise]
  | append_singleton history e ih =>
      have hlevel : (after signal quiet rest latch history).level =
          levelAfter signal latch.level history := level_after latch history
      rw [after_concat, lastRise_concat, ← ih]
      cases hsignal : signal e with
      | none => simp
      | some s =>
          cases s with
          | update value' =>
              have hrises : Rises signal quiet latch.level history value' ↔
                  quiet (after signal quiet rest latch history).level = true ∧
                    quiet value' = false := by rw [hlevel, Rises]
              simp only [Option.elim, Latch.apply, pending_update]
              by_cases hrise : Rises signal quiet latch.level history value'
              · rw [if_pos (hrises.mp hrise)]
                constructor
                · rintro hsame
                  cases hsame
                  exact .inl ⟨rfl, hrise⟩
                · rintro (⟨hupdate, -⟩ | ⟨-, -, hno⟩)
                  · cases hupdate
                    rfl
                  · exact absurd hrise (hno value' rfl)
              · rw [if_neg (mt hrises.mpr hrise)]
                constructor
                · intro hlast
                  refine .inr ⟨hlast, ?_, ?_⟩
                  · intro s hs
                    cases hs
                    exact id
                  · intro value'' hupdate
                    cases hupdate
                    exact hrise
                · rintro (⟨hupdate, hrise'⟩ | ⟨hlast, -⟩)
                  · cases hupdate
                    exact absurd hrise' hrise
                  · exact hlast
          | read =>
              simp [Latch.apply, (pending_read hrest _).2, Signal.Consumes]
          | clear =>
              simp [Latch.apply, pending_clear hrest, Signal.Consumes]

theorem exists_lastRise {history : List Event} :
    (∃ value, LastRise signal quiet start history value) ↔
      RoseSince signal quiet start history := by
  induction history using List.reverseRecOn with
  | nil => simp [LastRise, RoseSince]
  | append_singleton history e ih =>
      simp only [lastRise_concat, roseSince_concat, ← ih, exists_or]
      constructor
      · rintro (hrise | ⟨value, hlast, hnone, -⟩)
        · exact .inl hrise
        · exact .inr ⟨⟨value, hlast⟩, hnone⟩
      · rintro (hrise | ⟨⟨value, hlast⟩, hnone⟩)
        · exact .inl hrise
        · by_cases hagain : ∃ value', signal e = some (.update value') ∧
              Rises signal quiet start history value'
          · exact .inl hagain
          · exact .inr ⟨value, hlast, hnone, fun value' hupdate hrises =>
              hagain ⟨value', hupdate, hrises⟩⟩

/-- A latch holds something back just when the level rose since the last read or clear. -/
theorem pending_iff_roseSince (hrest : quiet rest = true) (latch : Latch α)
    (hlatch : latch.pending quiet = none) (history : List Event) :
    (∃ value, (after signal quiet rest latch history).pending quiet = some value) ↔
      RoseSince signal quiet latch.level history := by
  simp only [pending_after hrest latch hlatch, exists_lastRise]

/-- The fold rule: a view that every event moves like a latch is the latch after the history. -/
theorem view_foldl {State : Type*} (view : State → Latch α) (step : State → Event → State)
    (h : ∀ s e, view (step s e) = (signal e).elim (view s) ((view s).apply quiet rest))
    (s : State) (history : List Event) :
    view (history.foldl step s) = after signal quiet rest (view s) history := by
  induction history generalizing s with
  | nil => rfl
  | cons e history ih =>
      rw [List.foldl_cons, ih, h]
      rfl

/-- A view that no event moves stays as it is. -/
theorem view_kept {State View : Type*} (view : State → View) (step : State → Event → State)
    (h : ∀ s e, view (step s e) = view s) (s : State) (history : List Event) :
    view (history.foldl step s) = view s := by
  induction history generalizing s with
  | nil => rfl
  | cons e history ih => rw [List.foldl_cons, ih, h]

/-- What a read reports after a history is the last rise. -/
theorem read_after (hrest : quiet rest = true) (latch : Latch α)
    (hlatch : latch.pending quiet = none) (history : List Event) {value : α}
    (hvalue : quiet value = false) :
    ((after signal quiet rest latch history).read quiet rest).1 = value ↔
      LastRise signal quiet latch.level history value := by
  rw [read_eq_iff hrest _ hvalue, pending_after hrest latch hlatch]

/-- A read reports rest when there was none. -/
theorem read_after_rest (hrest : quiet rest = true) (latch : Latch α)
    (hlatch : latch.pending quiet = none) (history : List Event)
    (hnone : ∀ value, ¬ LastRise signal quiet latch.level history value) :
    ((after signal quiet rest latch history).read quiet rest).1 = rest := by
  have hnothing : (after signal quiet rest latch history).pending quiet = none :=
    Option.eq_none_iff_forall_ne_some.mpr fun value hpending =>
      hnone value ((pending_after hrest latch hlatch history value).mp hpending)
  rw [(pending_read hrest _).1, hnothing, Option.getD_none]

end History

theorem switch_read (latch : Latch Bool) : (latch.read not false).1 = latch.press := by
  cases hpress : latch.press <;> simp [Latch.read, hpress]

/-- A switch has one value out of rest, so a read tells whether there was a rise. -/
theorem switch_read_after {Event : Type v} {signal : Event → Option (Signal Bool)}
    (latch : Latch Bool) (hlatch : latch.pending not = none) (history : List Event) :
    ((after signal not false latch history).read not false).1 = true ↔
      RoseSince signal not latch.level history := by
  rw [read_after rfl latch hlatch history rfl, ← exists_lastRise]
  constructor
  · exact fun hlast => ⟨true, hlast⟩
  · rintro ⟨value, hlast⟩
    obtain ⟨-, -, -, -, -, ⟨-, hvalue⟩, -⟩ := id hlast
    cases value with
    | true => exact hlast
    | false => exact absurd hvalue (by decide)

/-- Updating one latch after the other from a list updates the one with an index once. -/
theorem view_updates {State : Type v} {quiet : α → Bool} (view : Nat → State → Latch α)
    (write : State → Nat → α → State)
    (h : ∀ s k value n, view n (write s k value) =
      if k = n then (view n s).update quiet value else view n s)
    (values : List α) (first : Nat) (s : State) (n : Nat) :
    view n ((values.zipIdx first).foldl (fun s field => write s field.2 field.1) s) =
      if first ≤ n then (values[n - first]?).elim (view n s) ((view n s).update quiet)
      else view n s := by
  induction values generalizing first s with
  | nil => simp
  | cons value values ih =>
      rw [List.zipIdx_cons, List.foldl_cons, ih, h]
      cases Nat.lt_trichotomy n first with
      | inl hlow => rw [if_neg (by omega), if_neg (by omega), if_neg (by omega)]
      | inr hrest =>
          cases hrest with
          | inl hsame =>
              subst hsame
              rw [if_neg (by omega), if_pos rfl, if_pos (Nat.le_refl _), Nat.sub_self]
              rfl
          | inr hhigh =>
              obtain ⟨k, rfl⟩ := Nat.exists_eq_add_of_lt hhigh
              rw [if_pos (by omega), if_neg (by omega), if_pos (by omega)]
              simp [show first + k + 1 - first = k + 1 by omega,
                show first + k + 1 - (first + 1) = k by omega]

end EdgeLatch
