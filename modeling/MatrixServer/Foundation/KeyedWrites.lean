import Mathlib.Data.List.Induction
import Mathlib.Data.List.Nodup

/-!
Writes to keyed cells, one after the other.
An entry overwrites the cell of its key and leaves the others alone, so after a
fold over many entries a cell shows what the last entry with its key wrote.
-/

namespace KeyedWrites

universe u v w

variable {Entry : Type u} {Key : Type v} [DecidableEq Key] (key : Entry → Key)

/-- The last entry with a key. -/
def lastFor (k : Key) (entries : List Entry) : Option Entry :=
  (entries.filter fun e => key e = k).getLast?

@[simp] theorem lastFor_nil (k : Key) : lastFor key k [] = none := rfl

theorem lastFor_concat (k : Key) (entries : List Entry) (e : Entry) :
    lastFor key k (entries ++ [e]) = if key e = k then some e else lastFor key k entries := by
  simp only [lastFor, List.filter_append]
  split
  · rename_i hkey
    simp [hkey]
  · rename_i hkey
    simp [hkey]

theorem mem_of_lastFor {k : Key} {entries : List Entry} {e : Entry}
    (h : lastFor key k entries = some e) : e ∈ entries ∧ key e = k := by
  obtain ⟨hmem, hkey⟩ := List.mem_filter.mp (List.mem_of_getLast? h)
  exact ⟨hmem, of_decide_eq_true hkey⟩

theorem lastFor_eq_none {k : Key} {entries : List Entry} :
    lastFor key k entries = none ↔ ∀ e ∈ entries, key e ≠ k := by
  simp [lastFor]

theorem lastFor_map {Other : Type w} (f : Other → Entry) (k : Key) (entries : List Other) :
    lastFor key k (entries.map f) = (lastFor (key ∘ f) k entries).map f := by
  simp only [lastFor, List.filter_map, List.getLast?_map]
  rfl

/-- An entry that shares its key with no other is the last one with its key. -/
theorem lastFor_of_unique {entries : List Entry} {e : Entry} (he : e ∈ entries)
    (hunique : ∀ other ∈ entries, key other = key e → other = e) :
    lastFor key (key e) entries = some e := by
  cases hlast : lastFor key (key e) entries with
  | none => exact absurd rfl ((lastFor_eq_none key).mp hlast e he)
  | some other =>
      obtain ⟨hmem, hkey⟩ := mem_of_lastFor key hlast
      rw [hunique other hmem hkey]

/-- Where no two entries share a key, each is the last one with its key. -/
theorem lastFor_of_nodup {entries : List Entry} (h : (entries.map key).Nodup) {e : Entry}
    (he : e ∈ entries) : lastFor key (key e) entries = some e :=
  lastFor_of_unique key he fun _ hother hkey => List.inj_on_of_nodup_map h hother he hkey

/-- The fold rule: a cell shows the last write to it. `Inv` is what the writes need of the
state they are done in. -/
theorem foldl_view {State : Type v} {Cell : Type w} (f : State → Entry → State)
    (view : State → Cell) (write : Entry → Cell → Cell) (Inv : State → Prop) {k : Key}
    (keep : ∀ s e, Inv s → Inv (f s e))
    (hit : ∀ s e, Inv s → key e = k → view (f s e) = write e (view s))
    (miss : ∀ s e, Inv s → key e ≠ k → view (f s e) = view s)
    (overwrite : ∀ e e' c, write e (write e' c) = write e c)
    (entries : List Entry) {s : State} (hs : Inv s) :
    view (entries.foldl f s) = (lastFor key k entries).elim (view s) fun e => write e (view s) := by
  have hboth : Inv (entries.foldl f s) ∧ view (entries.foldl f s) =
      (lastFor key k entries).elim (view s) fun e => write e (view s) := by
    induction entries using List.reverseRecOn with
    | nil => exact ⟨hs, rfl⟩
    | append_singleton entries e ih =>
        obtain ⟨hinv, hview⟩ := ih
        rw [List.foldl_append, List.foldl_cons, List.foldl_nil, lastFor_concat]
        refine ⟨keep _ e hinv, ?_⟩
        split
        · rename_i hkey
          rw [hit _ e hinv hkey, hview]
          cases lastFor key k entries with
          | none => rfl
          | some other => exact overwrite e other _
        · rename_i hkey
          rw [miss _ e hinv hkey, hview]
  exact hboth.2

end KeyedWrites
