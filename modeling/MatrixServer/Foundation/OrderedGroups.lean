import MatrixServer.Foundation.OrderedMap
import Mathlib.Data.List.Induction

/-!
Items grouped by a key.
Items that are appended one by one to the lists of a map end up under their own keys, in the
order they came in, and the map has no other keys.
-/

namespace OrderedMap

universe u v w

variable {Key : Type u} {Value : Type v} {Item : Type w} [DecidableEq Key] [LT Key]
  [DecidableLT Key]

/-- Append a value to the list that is stored under a key. -/
def pushBack (key : Key) (value : Value) (entries : List (Key × List Value)) :
    List (Key × List Value) :=
  put key ((find entries key).getD [] ++ [value]) entries

/-- The values of the items, under the items' keys. -/
def collect (key : Item → Key) (value : Item → Value) (items : List Item) :
    List (Key × List Value) :=
  items.foldl (fun entries item => pushBack (key item) (value item) entries) []

/-- The values of the items with a key, in the items' order. -/
def valuesAt (key : Item → Key) (value : Item → Value) (items : List Item) (at' : Key) :
    List Value :=
  (items.filter fun item => key item = at').map value

theorem collect_concat (key : Item → Key) (value : Item → Value) (items : List Item)
    (item : Item) : collect key value (items ++ [item]) =
      pushBack (key item) (value item) (collect key value items) := by
  simp only [collect, List.foldl_append, List.foldl_cons, List.foldl_nil]

theorem find_collect (key : Item → Key) (value : Item → Value) (items : List Item) (at' : Key) :
    find (collect key value items) at' = if valuesAt key value items at' = [] then none
      else some (valuesAt key value items at') := by
  induction items using List.reverseRecOn with
  | nil => rfl
  | append_singleton items item ih =>
      rw [collect_concat, pushBack, find_put]
      by_cases hkey : key item = at'
      · subst hkey
        have hvalues : valuesAt key value (items ++ [item]) (key item) =
            valuesAt key value items (key item) ++ [value item] := by
          simp [valuesAt]
        rw [if_pos rfl, hvalues, ih]
        by_cases hnone : valuesAt key value items (key item) = [] <;> simp [hnone]
      · have hvalues : valuesAt key value (items ++ [item]) at' = valuesAt key value items at' := by
          simp [valuesAt, hkey]
        rw [if_neg (Ne.symm hkey), hvalues, ih]

theorem ordered_collect [LE Key] [Std.IsLinearOrder Key] [Std.LawfulOrderLT Key]
    (key : Item → Key) (value : Item → Value) (items : List Item) :
    Ordered (collect key value items) := by
  induction items using List.reverseRecOn with
  | nil => exact List.Pairwise.nil
  | append_singleton items item ih =>
      rw [collect_concat]
      exact ih.put

/-- The entries are the keys of items, each with its items' values. -/
theorem mem_collect [LE Key] [Std.IsLinearOrder Key] [Std.LawfulOrderLT Key]
    {key : Item → Key} {value : Item → Value} {items : List Item} {at' : Key}
    {values : List Value} : (at', values) ∈ collect key value items ↔
      values = valuesAt key value items at' ∧ values ≠ [] := by
  have hfind := find_collect key value items at'
  constructor
  · intro hmem
    rw [(ordered_collect key value items).find_of_mem hmem] at hfind
    split at hfind
    · cases hfind
    · rename_i hsome
      cases hfind
      exact ⟨rfl, hsome⟩
  · rintro ⟨rfl, hsome⟩
    rw [if_neg hsome] at hfind
    exact mem_of_find hfind

end OrderedMap
