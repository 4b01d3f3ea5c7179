/-!
Maps as lists of entries in strictly increasing key order.
Such a list is known by what it finds under each key, so two ways of filling a map are
compared key by key.
-/

namespace OrderedMap

universe u v w

variable {Key : Type u} {Value : Type v} [DecidableEq Key]

def find (entries : List (Key × Value)) (key : Key) : Option Value :=
  (entries.find? fun entry => entry.1 = key).map Prod.snd

/-- Change what is stored under a key, if anything is. -/
def update (entries : List (Key × Value)) (key : Key) (f : Value → Value) :
    List (Key × Value) :=
  entries.map fun entry => (entry.1, if entry.1 = key then f entry.2 else entry.2)

@[simp] theorem find_nil (key : Key) : find ([] : List (Key × Value)) key = none := rfl

theorem find_cons (entry : Key × Value) (entries : List (Key × Value)) (key : Key) :
    find (entry :: entries) key = if entry.1 = key then some entry.2 else find entries key := by
  by_cases h : entry.1 = key <;> simp [find, h]

theorem mem_of_find {entries : List (Key × Value)} {key : Key} {value : Value}
    (h : find entries key = some value) : (key, value) ∈ entries := by
  obtain ⟨entry, hentry, rfl⟩ := Option.map_eq_some_iff.mp h
  have hkey : entry.1 = key := by simpa using List.find?_some hentry
  subst hkey
  exact List.mem_of_find?_eq_some hentry

/-- Changing each value, whatever its key, changes what is found. -/
theorem find_map {Other : Type w} (f : Key → Value → Other) (entries : List (Key × Value))
    (key : Key) : find (entries.map fun entry => (entry.1, f entry.1 entry.2)) key =
      (find entries key).map (f key) := by
  induction entries with
  | nil => rfl
  | cons entry entries ih =>
      rw [List.map_cons, find_cons, find_cons, ih]
      by_cases h : entry.1 = key
      · simp [h]
      · simp [h]

theorem find_update (entries : List (Key × Value)) (key other : Key) (f : Value → Value) :
    find (update entries key f) other =
      if other = key then (find entries key).map f else find entries other := by
  rw [update, find_map fun k value => if k = key then f value else value]
  split
  · rename_i h
    simp [h]
  · simp

/-- What is not there is not changed. -/
theorem update_of_not_found {entries : List (Key × Value)} {key : Key}
    (h : find entries key = none) (f : Value → Value) : update entries key f = entries := by
  induction entries with
  | nil => rfl
  | cons entry entries ih =>
      rw [find_cons] at h
      split at h
      · cases h
      · rename_i hne
        simpa [update, hne] using ih h

variable [LT Key]

def Ordered (entries : List (Key × Value)) : Prop := entries.Pairwise fun a b => a.1 < b.1

section
variable [LE Key] [Std.IsLinearOrder Key] [Std.LawfulOrderLT Key]

theorem find_eq_none_of_lt {key : Key} {entries : List (Key × Value)}
    (h : ∀ entry ∈ entries, key < entry.1) : find entries key = none := by
  induction entries with
  | nil => rfl
  | cons head entries ih =>
      have hhead := h head List.mem_cons_self
      have hne : head.1 ≠ key := by grind
      rw [find_cons, if_neg hne]
      exact ih fun entry hmem => h entry (List.mem_cons_of_mem _ hmem)

theorem Ordered.find_of_mem {entries : List (Key × Value)} (h : Ordered entries)
    {entry : Key × Value} (hmem : entry ∈ entries) : find entries entry.1 = some entry.2 := by
  induction entries with
  | nil => cases hmem
  | cons head entries ih =>
      obtain ⟨hbound, hrest⟩ := List.pairwise_cons.mp h
      rw [find_cons]
      cases List.mem_cons.mp hmem with
      | inl heq => rw [heq, if_pos rfl]
      | inr hmem =>
          have hlt := hbound entry hmem
          have hne : head.1 ≠ entry.1 := by grind
          rw [if_neg hne, ih hrest hmem]

theorem le_of_find_eq {head head' : Key × Value} {entries entries' : List (Key × Value)}
    (h' : Ordered (head' :: entries'))
    (heq : find (head :: entries) head.1 = find (head' :: entries') head.1) :
    ¬ head.1 < head'.1 := by
  intro hlt
  have hnone : find (head' :: entries') head.1 = none := by
    apply find_eq_none_of_lt
    intro entry hmem
    cases List.mem_cons.mp hmem with
    | inl hhead => exact hhead ▸ hlt
    | inr hmem => exact Std.lt_trans hlt ((List.pairwise_cons.mp h').1 entry hmem)
  rw [hnone, find_cons, if_pos rfl] at heq
  cases heq

/-- Two maps that find the same under each key are the same. -/
theorem Ordered.ext {entries entries' : List (Key × Value)} (h : Ordered entries)
    (h' : Ordered entries') (heq : ∀ key, find entries key = find entries' key) :
    entries = entries' := by
  induction entries generalizing entries' with
  | nil =>
      cases entries' with
      | nil => rfl
      | cons head' entries' =>
          have hhead := heq head'.1
          rw [find_cons, if_pos rfl] at hhead
          cases hhead
  | cons head entries ih =>
      cases entries' with
      | nil =>
          have hhead := heq head.1
          rw [find_cons, if_pos rfl] at hhead
          cases hhead
      | cons head' entries' =>
          obtain ⟨hbound, hrest⟩ := List.pairwise_cons.mp h
          obtain ⟨hbound', hrest'⟩ := List.pairwise_cons.mp h'
          have hkey : head.1 = head'.1 := by
            have hle := le_of_find_eq h' (heq head.1)
            have hge := le_of_find_eq h (heq head'.1).symm
            grind
          have hvalue : head.2 = head'.2 := by
            have hhead := heq head.1
            rw [find_cons, find_cons, if_pos rfl, if_pos hkey.symm] at hhead
            exact Option.some.inj hhead
          rw [Prod.ext hkey hvalue, ih hrest hrest' fun key => ?_]
          by_cases hsame : head.1 = key
          · subst hsame
            rw [find_eq_none_of_lt hbound, hkey, find_eq_none_of_lt hbound']
          · have hother := heq key
            rwa [find_cons, find_cons, if_neg hsame, if_neg (hkey ▸ hsame)] at hother

end

section
variable [DecidableLT Key]

/-- Store a value under a key, in the key's place. -/
def put (key : Key) (value : Value) : List (Key × Value) → List (Key × Value)
  | [] => [(key, value)]
  | entry :: entries =>
      if key < entry.1 then (key, value) :: entry :: entries
      else if key = entry.1 then (key, value) :: entries
      else entry :: put key value entries

theorem mem_put {key : Key} {value : Value} {entries : List (Key × Value)} {entry : Key × Value}
    (h : entry ∈ put key value entries) : entry = (key, value) ∨ entry ∈ entries := by
  induction entries with
  | nil => exact .inl (List.mem_singleton.mp h)
  | cons head entries ih =>
      simp only [put] at h
      split at h
      · exact List.mem_cons.mp h
      · split at h
        · exact (List.mem_cons.mp h).imp_right (List.mem_cons_of_mem _)
        · cases List.mem_cons.mp h with
          | inl hhead => exact .inr (hhead ▸ List.mem_cons_self)
          | inr hrest => exact (ih hrest).imp_right (List.mem_cons_of_mem _)

theorem find_put (key : Key) (value : Value) (entries : List (Key × Value)) (other : Key) :
    find (put key value entries) other =
      if other = key then some value else find entries other := by
  induction entries with
  | nil =>
      rw [put, find_cons]
      simp only [eq_comm]
  | cons head entries ih =>
      simp only [put]
      split
      · rw [find_cons]
        simp only [eq_comm]
      · split
        · rename_i heq
          rw [find_cons, find_cons, ← heq]
          by_cases hother : key = other <;> simp [hother, eq_comm]
        · rename_i hne
          rw [find_cons, ih, find_cons]
          by_cases hother : head.1 = other
          · have hkey : other ≠ key := fun heq => hne (heq ▸ hother.symm)
            simp [hother, hkey]
          · simp [hother]

theorem Ordered.put [LE Key] [Std.IsLinearOrder Key] [Std.LawfulOrderLT Key] {key : Key}
    {value : Value} {entries : List (Key × Value)} (h : Ordered entries) :
    Ordered (put key value entries) := by
  induction entries with
  | nil => exact List.pairwise_singleton _ _
  | cons head entries ih =>
      obtain ⟨hhead, hrest⟩ := List.pairwise_cons.mp h
      simp only [OrderedMap.put]
      split
      · rename_i hlt
        refine List.pairwise_cons.mpr ⟨fun entry hentry => ?_, h⟩
        cases List.mem_cons.mp hentry with
        | inl heq => exact heq ▸ hlt
        | inr hmem => exact Std.lt_trans hlt (hhead entry hmem)
      · split
        · rename_i heq
          exact List.pairwise_cons.mpr ⟨fun entry hmem => heq ▸ hhead entry hmem, hrest⟩
        · rename_i hle hne
          have hgt : head.1 < key := by grind
          refine List.pairwise_cons.mpr ⟨fun entry hmem => ?_, ih hrest⟩
          cases mem_put hmem with
          | inl heq => exact heq ▸ hgt
          | inr hmem => exact hhead entry hmem

end
end OrderedMap
