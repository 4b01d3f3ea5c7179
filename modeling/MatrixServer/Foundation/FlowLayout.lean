import Mathlib.Algebra.Order.Group.Int
import Mathlib.Data.Int.Order.Lemmas
import Mathlib.Logic.Function.Iterate
import Mathlib.Tactic.Ring

/-!
Items set one after the other in lines.
A cursor advances by the width of an item and starts a new line when the next item would
begin behind a limit; the page is full when it would begin below a bottom. The place of an
item has a closed form, in which the first line may begin elsewhere than the others.
-/

namespace FlowLayout

universe u

structure Page where
  advance : Int
  lineHeight : Int
  /-- where the lines but the first one begin -/
  indent : Int
  /-- the last column an item may begin in, unless it is the first one of its line -/
  limit : Int
  /-- the last row an item may begin in, unless it is the very first one -/
  bottom : Int
  advance_pos : 0 < advance
  lineHeight_pos : 0 < lineHeight

namespace Page
variable (page : Page)

/-- The cursor behind an item. -/
def next (cursor : Int × Int) : Int × Int :=
  if cursor.1 + page.advance > page.limit then (page.indent, cursor.2 + page.lineHeight)
  else (cursor.1 + page.advance, cursor.2)

/-- The items with their places, until the page is full. -/
def flow {Item : Type u} : Int × Int → List Item → List ((Int × Int) × Item)
  | _, [] => []
  | cursor, item :: items =>
      (cursor, item) :: if (page.next cursor).2 > page.bottom then []
        else flow (page.next cursor) items

/-- How many items go on a line that begins in a column. -/
def perLine (x : Int) : Nat := max 1 ((page.limit - x) / page.advance + 1).toNat

def line (x : Int) (i : Nat) : Nat :=
  if i < page.perLine x then 0 else 1 + (i - page.perLine x) / page.perLine page.indent

def column (x : Int) (i : Nat) : Int :=
  if i < page.perLine x then x + page.advance * i
  else page.indent + page.advance * ((i - page.perLine x) % page.perLine page.indent : Nat)

/-- The place of an item when the first one is at `start`. -/
def place (start : Int × Int) (i : Nat) : Int × Int :=
  (page.column start.1 i, start.2 + page.lineHeight * page.line start.1 i)

theorem perLine_pos (x : Int) : 0 < page.perLine x :=
  Nat.lt_of_lt_of_le Nat.one_pos (Nat.le_max_left _ _)

/-- An item is the last of its line exactly when the next one would begin behind the limit. -/
theorem wraps_iff (x : Int) (m : Nat) :
    x + page.advance * m + page.advance > page.limit ↔ page.perLine x ≤ m + 1 := by
  have hdiv : (page.limit - x) / page.advance < (m + 1 : Nat) ↔
      page.limit - x < (m + 1 : Nat) * page.advance :=
    Int.ediv_lt_iff_lt_mul page.advance_pos
  have hmul : ((m + 1 : Nat) : Int) * page.advance = page.advance * m + page.advance := by
    push_cast
    ring
  rw [hmul] at hdiv
  simp only [perLine]
  omega

theorem iterate_within (x y : Int) {m : Nat} (h : m < page.perLine x) :
    page.next^[m] (x, y) = (x + page.advance * m, y) := by
  induction m with
  | zero => simp
  | succ m ih =>
      have hfits : ¬x + page.advance * m + page.advance > page.limit := by
        rw [page.wraps_iff]
        omega
      rw [Function.iterate_succ_apply', ih (Nat.lt_of_succ_lt h), next, if_neg hfits]
      push_cast
      rw [mul_add, mul_one, add_assoc]

theorem iterate_line (x y : Int) :
    page.next^[page.perLine x] (x, y) = (page.indent, y + page.lineHeight) := by
  obtain ⟨m, hm⟩ := Nat.exists_eq_succ_of_ne_zero (Nat.ne_of_gt (page.perLine_pos x))
  have hwraps : x + page.advance * m + page.advance > page.limit := by
    rw [page.wraps_iff, hm]
  rw [hm, Function.iterate_succ_apply', page.iterate_within x y (hm ▸ Nat.lt_succ_self m), next,
    if_pos hwraps]

theorem iterate_lines (y : Int) (lines : Nat) :
    page.next^[page.perLine page.indent * lines] (page.indent, y) =
      (page.indent, y + page.lineHeight * lines) := by
  induction lines with
  | zero => simp
  | succ lines ih =>
      rw [Nat.mul_succ, Nat.add_comm, Function.iterate_add_apply, ih, page.iterate_line]
      push_cast
      rw [mul_add, mul_one, add_assoc]

theorem iterate_next (start : Int × Int) (i : Nat) : page.next^[i] start = page.place start i := by
  obtain ⟨x, y⟩ := start
  simp only [place, column, line]
  by_cases hfirst : i < page.perLine x
  · rw [page.iterate_within x y hfirst]
    simp [hfirst]
  · obtain ⟨j, rfl⟩ := Nat.exists_eq_add_of_le' (Nat.le_of_not_lt hfirst)
    have hsplit := Nat.div_add_mod j (page.perLine page.indent)
    have hwithin := Nat.mod_lt j (page.perLine_pos page.indent)
    rw [Function.iterate_add_apply, page.iterate_line, if_neg hfirst, if_neg hfirst,
      Nat.add_sub_cancel]
    conv_lhs => rw [← hsplit, Nat.add_comm, Function.iterate_add_apply, page.iterate_lines,
      page.iterate_within _ _ hwithin]
    push_cast
    rw [mul_add, mul_one, add_assoc]

/-- The lines go downwards. -/
theorem line_mono (x : Int) {i j : Nat} (h : i ≤ j) : page.line x i ≤ page.line x j := by
  simp only [line]
  split
  · exact Nat.zero_le _
  · rw [if_neg (by omega)]
    exact Nat.add_le_add_left (Nat.div_le_div_right (Nat.sub_le_sub_right h _)) 1

/-- Of two items the later one is on a later line, or on the same one behind the other. -/
theorem line_or_column (x : Int) {i j : Nat} (h : i < j) :
    page.line x i < page.line x j ∨
      page.line x i = page.line x j ∧ page.column x i + page.advance ≤ page.column x j := by
  have hbehind : ∀ m n : Nat, m < n → page.advance * m + page.advance ≤ page.advance * n := by
    intro m n hlt
    have hle : ((m + 1 : Nat) : Int) ≤ n := by exact_mod_cast hlt
    have hmul := mul_le_mul_of_nonneg_left hle (Int.le_of_lt page.advance_pos)
    push_cast at hmul
    rwa [mul_add, mul_one] at hmul
  simp only [line, column]
  by_cases hj : j < page.perLine x
  · have hi := Nat.lt_trans h hj
    simp only [if_pos hi, if_pos hj, Nat.lt_irrefl, false_or, true_and]
    rw [add_assoc]
    exact Int.add_le_add_left (hbehind i j h) x
  · by_cases hi : i < page.perLine x
    · left
      rw [if_pos hi, if_neg hj]
      exact Nat.lt_of_lt_of_le Nat.one_pos (Nat.le_add_right _ _)
    · simp only [if_neg hi, if_neg hj]
      have hdiv := Nat.div_le_div_right (c := page.perLine page.indent)
        (Nat.sub_le_sub_right (Nat.le_of_lt h) (page.perLine x))
      cases Nat.lt_or_eq_of_le hdiv with
      | inl hlater => exact .inl (Nat.add_lt_add_left hlater 1)
      | inr hsame =>
          refine .inr ⟨congrArg (1 + ·) hsame, ?_⟩
          rw [add_assoc]
          apply Int.add_le_add_left
          apply hbehind
          have hmod := Nat.div_add_mod (i - page.perLine x) (page.perLine page.indent)
          have hmod' := Nat.div_add_mod (j - page.perLine x) (page.perLine page.indent)
          rw [hsame] at hmod
          omega

theorem row_mono (start : Int × Int) {i j : Nat} (h : i ≤ j) :
    (page.place start i).2 ≤ (page.place start j).2 := by
  have hline : (page.line start.1 i : Int) ≤ page.line start.1 j := by
    exact_mod_cast page.line_mono start.1 h
  exact Int.add_le_add_left (mul_le_mul_of_nonneg_left hline (Int.le_of_lt page.lineHeight_pos)) _

/-- Items at different places do not overlap. -/
theorem apart (start : Int × Int) {i j : Nat} (h : i < j) :
    (page.place start i).2 + page.lineHeight ≤ (page.place start j).2 ∨
      (page.place start i).1 + page.advance ≤ (page.place start j).1 := by
  cases page.line_or_column start.1 h with
  | inl hline =>
      left
      have hle : ((page.line start.1 i + 1 : Nat) : Int) ≤ page.line start.1 j := by
        exact_mod_cast hline
      have hmul := mul_le_mul_of_nonneg_left hle (Int.le_of_lt page.lineHeight_pos)
      push_cast at hmul
      rw [mul_add, mul_one] at hmul
      simp only [place]
      omega
  | inr hcolumn => exact .inr hcolumn.2

/-- The items set are those whose place is not below the bottom, and the first one. -/
theorem mem_flow {Item : Type u} (cursor : Int × Int) (items : List Item)
    (cell : (Int × Int) × Item) :
    cell ∈ page.flow cursor items ↔ ∃ i, items[i]? = some cell.2 ∧ cell.1 = page.place cursor i ∧
      (i = 0 ∨ (page.place cursor i).2 ≤ page.bottom) := by
  induction items generalizing cursor with
  | nil => simp [flow]
  | cons item items ih =>
      have hlater : ∀ i, page.place (page.next cursor) i = page.place cursor (i + 1) := by
        intro i
        rw [← page.iterate_next, ← page.iterate_next, Function.iterate_succ_apply]
      have hnext : page.next cursor = page.place cursor 1 := (page.iterate_next cursor 1)
      have hfirst : cursor = page.place cursor 0 := page.iterate_next cursor 0
      rw [flow, List.mem_cons]
      constructor
      · intro h
        cases h with
        | inl hhead => exact ⟨0, by simp [hhead], by rw [hhead]; exact hfirst, .inl rfl⟩
        | inr htail =>
            split at htail
            · exact absurd htail List.not_mem_nil
            · rename_i hroom
              obtain ⟨i, hitem, hplace, hrow⟩ := (ih _).mp htail
              rw [hlater] at hplace hrow
              refine ⟨i + 1, by simpa using hitem, hplace, .inr ?_⟩
              cases hrow with
              | inl hzero =>
                  rw [hzero, Nat.zero_add, ← hnext]
                  exact Int.not_lt.mp hroom
              | inr hrow => exact hrow
      · rintro ⟨i, hitem, hplace, hrow⟩
        cases i with
        | zero =>
            rw [← hfirst] at hplace
            refine .inl (Prod.ext hplace ?_)
            simpa using hitem.symm
        | succ i =>
            have hrow := hrow.resolve_left (Nat.succ_ne_zero i)
            have hroom : ¬(page.next cursor).2 > page.bottom := by
              rw [hnext, Int.not_lt]
              exact Int.le_trans (page.row_mono cursor (Nat.le_add_left 1 i)) hrow
            rw [if_neg hroom]
            refine .inr ((ih _).mpr ⟨i, by simpa using hitem, ?_, ?_⟩)
            · rw [hlater, hplace]
            · rw [hlater]
              exact .inr hrow

/-- No item begins to the left of the first one and of the indent. -/
theorem le_column (x : Int) (i : Nat) : min x page.indent ≤ page.column x i := by
  have hstep : ∀ m : Nat, 0 ≤ page.advance * m := fun m =>
    mul_nonneg (Int.le_of_lt page.advance_pos) (Int.natCast_nonneg m)
  simp only [column]
  split
  · exact Int.le_trans (Int.min_le_left _ _) (le_add_of_nonneg_right (hstep _))
  · exact Int.le_trans (Int.min_le_right _ _) (le_add_of_nonneg_right (hstep _))

/-- No item begins behind the limit when no line does. -/
theorem column_le (x : Int) (i : Nat) (hx : x ≤ page.limit) (hindent : page.indent ≤ page.limit) :
    page.column x i ≤ page.limit := by
  have hwithin : ∀ (y : Int) (m : Nat), y ≤ page.limit → m < page.perLine y →
      y + page.advance * m ≤ page.limit := by
    intro y m hy hm
    cases m with
    | zero => simpa using hy
    | succ m =>
        have hfits := (page.wraps_iff y m).not.mpr (Nat.not_le_of_lt hm)
        push_cast
        rw [mul_add, mul_one, ← add_assoc]
        exact Int.not_lt.mp hfits
  simp only [column]
  split
  · rename_i hfirst
    exact hwithin x i hx hfirst
  · exact hwithin page.indent _ hindent (Nat.mod_lt _ (page.perLine_pos _))

/-- When all lines begin in one column they are equally long. -/
theorem place_of_indent (start : Int × Int) (i : Nat) (h : page.indent = start.1) :
    page.place start i = (start.1 + page.advance * (i % page.perLine start.1 : Nat),
      start.2 + page.lineHeight * (i / page.perLine start.1 : Nat)) := by
  have hpos := page.perLine_pos start.1
  simp only [place, column, line, h]
  split
  · rename_i hfirst
    rw [Nat.mod_eq_of_lt hfirst, Nat.div_eq_of_lt hfirst]
  · rename_i hfirst
    have hle := Nat.le_of_not_lt hfirst
    rw [Nat.mod_eq_sub_mod hle, Nat.div_eq_sub_div hpos hle, Nat.add_comm 1]

/-- What fits on a page all of whose lines begin in one column. -/
theorem row_le_iff (start : Int × Int) (i : Nat) (h : page.indent = start.1) :
    (page.place start i).2 ≤ page.bottom ↔
      (i / page.perLine start.1 : Nat) < (page.bottom - start.2) / page.lineHeight + 1 := by
  rw [page.place_of_indent start i h, Int.lt_add_one_iff,
    Int.le_ediv_iff_mul_le page.lineHeight_pos, Int.mul_comm _ page.lineHeight]
  exact ⟨Int.le_sub_left_of_add_le, Int.add_le_of_le_sub_left⟩

end Page
end FlowLayout
