import Mathlib.Data.List.Nodup

/-!
A stack whose members are told to pause or to resume.
The back of the stack is the one member that may run. `told` records the last
word each member was given; it is consistent with the stack when everyone below
the back was told to pause and the back was not. Pushing, rebuking a member
below the back and removing any set of members keep it consistent.
-/

namespace ControlStack

universe u

inductive Control where
  | pause | resume
  deriving DecidableEq, Repr

structure Stack (Id : Type u) where
  members : List Id
  told : Id → Option Control

namespace Stack

variable {Id : Type u}

structure Consistent (s : Stack Id) : Prop where
  nodup : s.members.Nodup
  below : ∀ a ∈ s.members.dropLast, s.told a = some .pause
  top : ∀ a ∈ s.members.getLast?, s.told a ≠ some .pause

theorem consistent_empty (told : Id → Option Control) : (Stack.mk [] told).Consistent :=
  ⟨List.nodup_nil, fun _ h => False.elim (List.not_mem_nil h), fun _ h => nomatch h⟩

theorem eq_concat {members : List Id} {a : Id} (h : a ∈ members.getLast?) :
    members = members.dropLast ++ [a] := by
  have hne : members ≠ [] := by
    intro hnil
    subst hnil
    cases h
  rw [List.getLast?_eq_some_getLast hne] at h
  cases Option.mem_def.mp h
  exact (List.dropLast_append_getLast hne).symm

/-- The back of a list without repetitions is not below the back. -/
theorem not_below_of_top {members : List Id} (h : members.Nodup) {a : Id}
    (ha : a ∈ members.getLast?) : a ∉ members.dropLast := by
  intro hmem
  rw [eq_concat ha] at h
  exact List.disjoint_of_nodup_append h hmem (List.mem_singleton_self a)

theorem mem_cases {members : List Id} {a : Id} (h : a ∈ members) :
    a ∈ members.dropLast ∨ a ∈ members.getLast? := by
  have hne := List.ne_nil_of_mem h
  rw [← List.dropLast_append_getLast hne] at h
  cases List.mem_append.mp h with
  | inl hbelow => exact .inl hbelow
  | inr htop =>
      right
      rw [List.getLast?_eq_some_getLast hne, List.mem_singleton.mp htop]
      rfl

/-- What stays below the back was below the back before. -/
theorem below_of_below_filter {members : List Id} (hnodup : members.Nodup) (keep : Id → Bool)
    {a : Id} (h : a ∈ (members.filter keep).dropLast) : a ∈ members.dropLast := by
  have hmem : a ∈ members.filter keep := List.dropLast_subset _ h
  cases mem_cases (List.mem_of_mem_filter hmem) with
  | inl hbelow => exact hbelow
  | inr htop =>
      exfalso
      have hkeep : keep a = true := List.of_mem_filter hmem
      have hconcat : members.filter keep = members.dropLast.filter keep ++ [a] := by
        conv_lhs => rw [eq_concat htop]
        simp [hkeep]
      have hlast : a ∈ (members.filter keep).getLast? := by simp [hconcat]
      exact not_below_of_top (hnodup.filter keep) hlast h

variable [DecidableEq Id]

/-- The back of a list, told something. -/
def tell (members : List Id) (word : Control) (told : Id → Option Control) : Id → Option Control :=
  fun b => if b ∈ members.getLast? then some word else told b

/-- A new member comes to the back; the old back is told to pause. -/
def push (s : Stack Id) (a : Id) : Stack Id where
  members := s.members ++ [a]
  told b := if b = a then none else tell s.members .pause s.told b

/-- A member is told to pause where it stands. -/
def rebuke (s : Stack Id) (a : Id) : Stack Id where
  members := s.members
  told b := if b = a then some .pause else s.told b

/-- Only some members stay; a back that was not the back before is told to resume. -/
def retain (s : Stack Id) (keep : Id → Bool) : Stack Id where
  members := s.members.filter keep
  told :=
    if (s.members.filter keep).getLast? = s.members.getLast? then s.told
    else tell (s.members.filter keep) .resume s.told

theorem Consistent.push {s : Stack Id} (h : s.Consistent) {a : Id} (ha : a ∉ s.members) :
    (s.push a).Consistent := by
  refine ⟨?_, ?_, ?_⟩
  · exact List.nodup_append.mpr ⟨h.nodup, List.nodup_singleton a, fun b hb c hc hbc =>
      ha (List.mem_singleton.mp hc ▸ hbc ▸ hb)⟩
  · intro b hb
    simp only [Stack.push, List.dropLast_concat] at hb
    have hne : b ≠ a := fun hba => ha (hba ▸ hb)
    simp only [Stack.push, if_neg hne, tell]
    split
    · rfl
    · rename_i htop
      exact h.below b ((mem_cases hb).resolve_right htop)
  · intro b hb
    simp only [Stack.push, List.getLast?_concat, Option.mem_def, Option.some.injEq] at hb
    simp [Stack.push, hb]

theorem Consistent.rebuke {s : Stack Id} (h : s.Consistent) {a : Id}
    (ha : a ∉ s.members.getLast?) : (s.rebuke a).Consistent := by
  refine ⟨h.nodup, ?_, ?_⟩
  · intro b hb
    simp only [Stack.rebuke]
    split
    · rfl
    · exact h.below b hb
  · intro b hb
    have hne : b ≠ a := fun hba => ha (hba ▸ hb)
    simp only [Stack.rebuke, if_neg hne]
    exact h.top b hb

theorem Consistent.retain {s : Stack Id} (h : s.Consistent) (keep : Id → Bool) :
    (s.retain keep).Consistent := by
  have hnodup : (s.members.filter keep).Nodup := h.nodup.filter keep
  refine ⟨hnodup, ?_, ?_⟩
  · intro a ha
    have hbelow := h.below a (below_of_below_filter h.nodup keep ha)
    simp only [Stack.retain]
    split
    · exact hbelow
    · have hnot : a ∉ (s.members.filter keep).getLast? :=
        fun htop => not_below_of_top hnodup htop ha
      simpa only [tell, if_neg hnot] using hbelow
  · intro a ha
    simp only [Stack.retain] at ha ⊢
    split
    · rename_i hsame
      exact h.top a (hsame ▸ ha)
    · simp only [tell, if_pos ha]
      nofun

/-- A member that comes up from below the back is told to resume. -/
theorem Consistent.retain_resumes {s : Stack Id} (h : s.Consistent) (keep : Id → Bool) {a : Id}
    (hbelow : a ∈ s.members.dropLast) (htop : a ∈ (s.retain keep).members.getLast?) :
    (s.retain keep).told a = some .resume := by
  simp only [Stack.retain] at htop ⊢
  split
  · rename_i hsame
    exact absurd hbelow (not_below_of_top h.nodup (hsame ▸ htop))
  · simp only [tell, if_pos htop]

end Stack
end ControlStack
