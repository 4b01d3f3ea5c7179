import Mathlib.Data.List.Range
import Mathlib.Data.Int.Basic

/-!
Lines on an integer grid.
A line of `M` steps has, on an axis that changes by `d` in all, moved after `i` of them by
the whole number nearest to `d * i / M`, and by the smaller one where two are as near. An
algorithm follows it by keeping the error of each axis.
-/

namespace RasterLine

universe u v

/-- `D * i / M` rounded, halves down. -/
def nearest (M D i : Nat) : Nat := (2 * D * i + M - 1) / (2 * M)

theorem nearest_iff {M : Nat} (hM : 0 < M) (D i k : Nat) :
    nearest M D i = k ↔ 2 * (M * k) < 2 * (D * i) + M ∧ 2 * (D * i) ≤ 2 * (M * k) + M := by
  rw [nearest, Nat.div_eq_iff (by omega)]
  have hlow : k * (2 * M) = 2 * (M * k) := by rw [Nat.mul_left_comm, Nat.mul_comm k]
  have hdist : 2 * D * i = 2 * (D * i) := Nat.mul_assoc _ _ _
  rw [hlow, hdist]
  omega

theorem nearest_spec {M : Nat} (hM : 0 < M) (D i : Nat) :
    2 * (M * nearest M D i) < 2 * (D * i) + M ∧
      2 * (D * i) ≤ 2 * (M * nearest M D i) + M :=
  (nearest_iff hM D i _).mp rfl

theorem nearest_zero (M D : Nat) : nearest M D 0 = 0 := by
  cases Nat.eq_zero_or_pos M with
  | inl hM => simp [nearest, hM]
  | inr hM => exact (nearest_iff hM D 0 0).mpr (by omega)

theorem nearest_still (M i : Nat) : nearest M 0 i = 0 := by
  cases Nat.eq_zero_or_pos M with
  | inl hM => simp [nearest, hM]
  | inr hM => exact (nearest_iff hM 0 i 0).mpr (by omega)

theorem nearest_all (M D : Nat) (h : D ≤ M) : nearest M D M = D := by
  cases Nat.eq_zero_or_pos M with
  | inl hM =>
      subst hM
      simp [nearest, Nat.le_zero.mp h]
  | inr hM =>
      refine (nearest_iff hM D M D).mpr ?_
      rw [Nat.mul_comm D M]
      omega

/-- On the axis with the most to go each step counts. -/
theorem nearest_driving {M : Nat} (hM : 0 < M) (i : Nat) : nearest M M i = i :=
  (nearest_iff hM M i i).mpr (by omega)

/-- The error an algorithm keeps for an axis: positive when the next step moves on it. -/
def error (M D i : Nat) : Int := 2 * (D * (i + 1)) - M - 2 * (M * nearest M D i)

theorem error_zero (M D : Nat) : error M D 0 = 2 * D - M := by
  simp [error, nearest_zero]

theorem nearest_succ {M D : Nat} (h : D ≤ M) (i : Nat) :
    nearest M D (i + 1) = nearest M D i + if error M D i > 0 then 1 else 0 := by
  cases Nat.eq_zero_or_pos M with
  | inl hM =>
      have hD : D = 0 := by omega
      simp [hD, hM, error, nearest_still]
  | inr hM =>
      obtain ⟨hlow, hhigh⟩ := nearest_spec hM D i
      have herror : error M D i = 2 * (D * i) + 2 * D - M - 2 * (M * nearest M D i) := by
        simp only [error, Int.mul_add]
        omega
      refine (nearest_iff hM D (i + 1) _).mpr ?_
      split
      · rename_i hpos
        rw [herror] at hpos
        simp only [Nat.mul_add, Nat.mul_one]
        omega
      · rename_i hneg
        rw [herror] at hneg
        simp only [Nat.mul_add, Nat.mul_one, Nat.add_zero]
        omega

theorem error_succ {M D : Nat} (h : D ≤ M) (i : Nat) : error M D (i + 1) =
    (if error M D i > 0 then error M D i - 2 * M else error M D i) + 2 * D := by
  have hnext := nearest_succ h i
  by_cases hpos : error M D i > 0
  · rw [if_pos hpos] at hnext ⊢
    simp only [error, hnext, Int.natCast_add, Int.natCast_one, Int.mul_add]
    omega
  · rw [if_neg hpos] at hnext ⊢
    simp only [error, hnext, Int.natCast_add, Int.natCast_one, Int.mul_add, Nat.add_zero]
    omega

/-- An axis that does not change is never moved on. -/
theorem ne_zero_of_error {M : Nat} {d : Int} {i : Nat} (h : error M d.natAbs i > 0) : d ≠ 0 := by
  rintro rfl
  simp only [error, Int.natAbs_zero, nearest_still] at h
  omega

theorem error_bounds {M D : Nat} (h : D ≤ M) (i : Nat) :
    2 * (D : Int) - 2 * M ≤ error M D i ∧ error M D i ≤ 2 * D := by
  cases Nat.eq_zero_or_pos M with
  | inl hM =>
      have hD : D = 0 := by omega
      simp [hD, hM, error, nearest_still]
  | inr hM =>
      obtain ⟨hlow, hhigh⟩ := nearest_spec hM D i
      simp only [error, Int.mul_add]
      omega

/-- The move along an axis that changes by `d` in all. -/
def along (M : Nat) (d : Int) (i : Nat) : Int := d.sign * nearest M d.natAbs i

@[simp] theorem along_zero (M : Nat) (d : Int) : along M d 0 = 0 := by
  simp [along, nearest_zero]

@[simp] theorem along_still (M i : Nat) : along M 0 i = 0 := by
  simp [along]

theorem along_neg (M : Nat) (d : Int) (i : Nat) : along M (-d) i = -along M d i := by
  simp only [along, Int.natAbs_neg, Int.sign_neg, Int.neg_mul]

theorem along_all {M : Nat} {d : Int} (h : d.natAbs ≤ M) : along M d M = d := by
  rw [along, nearest_all M _ h, Int.sign_mul_natAbs]

theorem along_succ {M : Nat} {d : Int} (h : d.natAbs ≤ M) (i : Nat) :
    along M d (i + 1) = along M d i + if error M d.natAbs i > 0 then d.sign else 0 := by
  rw [along, nearest_succ h]
  by_cases hpos : error M d.natAbs i > 0
  · rw [if_pos hpos, if_pos hpos, Int.natCast_add, Int.natCast_one, Int.mul_add, Int.mul_one, along]
  · rw [if_neg hpos, if_neg hpos, Nat.add_zero, Int.add_zero, along]

variable {ι : Type u} {κ : Type v}

def pointAt (M : Nat) (start stop : ι → Int) (i : Nat) : ι → Int :=
  fun axis => start axis + along M (stop axis - start axis) i

def line (M : Nat) (start stop : ι → Int) : List (ι → Int) :=
  (List.range (M + 1)).map (pointAt M start stop)

theorem mem_line {M : Nat} {start stop p : ι → Int} :
    p ∈ line M start stop ↔ ∃ i ≤ M, ∀ axis, start axis + along M (stop axis - start axis) i =
      p axis := by
  simp only [line, List.mem_map, List.mem_range, Nat.lt_succ_iff, funext_iff, pointAt]

/-- What is asked of a line of `M` steps from `start` to `stop`. -/
structure Faithful (M : Nat) (start stop : ι → Int) (points : List (ι → Int)) : Prop where
  length : points.length = M + 1
  first : points.head? = some start
  last : points.getLast? = some stop
  monotone : ∀ {i j : Nat} {p q : ι → Int}, i ≤ j → points[i]? = some p →
    points[j]? = some q → ∀ axis,
      (start axis ≤ stop axis → p axis ≤ q axis) ∧ (stop axis ≤ start axis → q axis ≤ p axis)
  unitSteps : ∀ {i : Nat} {p q : ι → Int}, points[i]? = some p → points[i + 1]? = some q →
    ∀ axis, (q axis - p axis).natAbs ≤ 1 ∧
      ((stop axis - start axis).natAbs = M → (q axis - p axis).natAbs = 1)
  near : ∀ {i : Nat} {p : ι → Int}, points[i]? = some p → ∀ axis,
    2 * (M * (p axis - start axis) - (stop axis - start axis) * i).natAbs ≤ M

theorem getElem?_line {M : Nat} {start stop p : ι → Int} {i : Nat}
    (h : (line M start stop)[i]? = some p) : i ≤ M ∧ p = pointAt M start stop i := by
  simp only [line, List.getElem?_map, Option.map_eq_some_iff] at h
  obtain ⟨k, hk, rfl⟩ := h
  obtain ⟨hlt, rfl⟩ := List.getElem?_eq_some_iff.mp hk
  rw [List.length_range] at hlt
  exact ⟨Nat.le_of_lt_succ hlt, by rw [List.getElem_range]⟩

theorem along_mono {M : Nat} {d : Int} (h : d.natAbs ≤ M) {i j : Nat} (hij : i ≤ j) :
    (0 ≤ d → along M d i ≤ along M d j) ∧ (d ≤ 0 → along M d j ≤ along M d i) := by
  induction hij with
  | refl => exact ⟨fun _ => Int.le_refl _, fun _ => Int.le_refl _⟩
  | step hle ih =>
      rw [Nat.succ_eq_add_one, along_succ h]
      refine ⟨fun hd => ?_, fun hd => ?_⟩
      · have hsign : 0 ≤ d.sign := Int.sign_nonneg_iff.mpr hd
        have hold := ih.1 hd
        split <;> omega
      · have hsign : d.sign ≤ 0 := Int.sign_nonpos_iff.mpr hd
        have hold := ih.2 hd
        split <;> omega

theorem along_natCast (M D i : Nat) : along M D i = nearest M D i := by
  cases Nat.eq_zero_or_pos D with
  | inl hD => simp [hD, nearest_still]
  | inr hD => rw [along, Int.sign_eq_one_of_pos (by omega), Int.one_mul, Int.natAbs_natCast]

theorem along_near {M : Nat} {d : Int} (h : d.natAbs ≤ M) (i : Nat) :
    2 * (M * along M d i - d * i).natAbs ≤ M := by
  cases Nat.eq_zero_or_pos M with
  | inl hM =>
      have hd : d = 0 := by omega
      simp [hd]
  | inr hM =>
      obtain ⟨hlow, hhigh⟩ := nearest_spec hM d.natAbs i
      cases Int.natAbs_eq d with
      | inl hd =>
          rw [hd, along_natCast, ← Int.natCast_mul, ← Int.natCast_mul]
          omega
      | inr hd =>
          rw [hd, along_neg, along_natCast, Int.mul_neg, Int.neg_mul, ← Int.natCast_mul,
            ← Int.natCast_mul]
          omega

theorem error_driving {M : Nat} (hM : 0 < M) (i : Nat) : error M M i = M := by
  simp only [error, nearest_driving hM, Int.mul_add]
  omega

/-- A step moves by at most one, and by one on each axis with the most to go. -/
theorem along_unit {M : Nat} {d : Int} (h : d.natAbs ≤ M) {i : Nat} (hi : i < M) :
    (along M d (i + 1) - along M d i).natAbs ≤ 1 ∧
      (d.natAbs = M → (along M d (i + 1) - along M d i).natAbs = 1) := by
  have hsign : d.natAbs = M → d.sign.natAbs = 1 := fun hd => Int.natAbs_sign_of_ne_zero (by omega)
  have hle : d.sign.natAbs ≤ 1 := by
    cases Decidable.em (d = 0) with
    | inl hd => simp [hd]
    | inr hd => exact Nat.le_of_eq (Int.natAbs_sign_of_ne_zero hd)
  have hmove : along M d (i + 1) - along M d i = if error M d.natAbs i > 0 then d.sign else 0 := by
    rw [along_succ h, Int.add_comm, Int.add_sub_cancel]
  rw [hmove]
  constructor
  · split <;> omega
  · intro hd
    have hpos : error M d.natAbs i > 0 := by
      rw [hd, error_driving (by omega)]
      omega
    rw [if_pos hpos]
    exact hsign hd

theorem natAbs_along (M : Nat) (d : Int) (i : Nat) :
    (along M d i).natAbs = nearest M d.natAbs i := by
  cases Int.natAbs_eq d with
  | inl hd =>
      have hmove := along_natCast M d.natAbs i
      rw [← hd] at hmove
      omega
  | inr hd =>
      have hmove := along_neg M d.natAbs i
      rw [← hd, along_natCast] at hmove
      omega

/-- On an axis with the most to go the steps are counted. -/
theorem natAbs_along_driving {M : Nat} {d : Int} (h : d.natAbs = M) {i : Nat} (hi : i ≤ M) :
    (along M d i).natAbs = i := by
  rw [natAbs_along, h]
  cases Nat.eq_zero_or_pos M with
  | inl hM =>
      have hzero : i = 0 := by omega
      simp [hzero, nearest_zero]
  | inr hM => exact nearest_driving hM i

/-- An axis with the most to go passes every value on its way. -/
theorem exists_along {M : Nat} {d : Int} (h : d.natAbs = M) (value : Int) :
    (∃ i ≤ M, along M d i = value) ↔ min 0 d ≤ value ∧ value ≤ max 0 d := by
  have hall := along_all (M := M) (d := d) (Nat.le_of_eq h)
  constructor
  · intro hpassed
    obtain ⟨i, hi, rfl⟩ := hpassed
    have hfrom := along_mono (M := M) (d := d) (Nat.le_of_eq h) (Nat.zero_le i)
    have hto := along_mono (M := M) (d := d) (Nat.le_of_eq h) hi
    rw [along_zero] at hfrom
    rw [hall] at hto
    omega
  · intro hbetween
    refine ⟨value.natAbs, by omega, ?_⟩
    have hcount := natAbs_along_driving h (i := value.natAbs) (by omega)
    have hfrom := along_mono (M := M) (d := d) (Nat.le_of_eq h) (Nat.zero_le value.natAbs)
    rw [along_zero] at hfrom
    omega

theorem pointAt_start (M : Nat) (start stop : ι → Int) : pointAt M start stop 0 = start := by
  funext axis
  simp [pointAt]

theorem pointAt_stop {M : Nat} {start stop : ι → Int}
    (h : ∀ axis, (stop axis - start axis).natAbs ≤ M) : pointAt M start stop M = stop := by
  funext axis
  rw [pointAt, along_all (h axis)]
  omega

/-- The line that the nearest grid points make is faithful. -/
theorem line_faithful {M : Nat} {start stop : ι → Int}
    (h : ∀ axis, (stop axis - start axis).natAbs ≤ M) :
    Faithful M start stop (line M start stop) := by
  constructor
  · simp [line]
  · simp [line, List.range_succ_eq_map, pointAt_start]
  · simp [line, List.range_succ, pointAt_stop h]
  · intro i j p q hij hp hq axis
    obtain ⟨-, rfl⟩ := getElem?_line hp
    obtain ⟨-, rfl⟩ := getElem?_line hq
    obtain ⟨hup, hdown⟩ := along_mono (h axis) hij
    simp only [pointAt]
    omega
  · intro i p q hp hq axis
    obtain ⟨-, rfl⟩ := getElem?_line hp
    obtain ⟨hi, rfl⟩ := getElem?_line hq
    have hstep := along_unit (h axis) (i := i) (by omega)
    simpa only [pointAt, Int.add_sub_add_left] using hstep
  · intro i p hp axis
    obtain ⟨-, rfl⟩ := getElem?_line hp
    have hmove : pointAt M start stop i axis - start axis =
        along M (stop axis - start axis) i := by
      rw [pointAt, Int.add_comm, Int.add_sub_cancel]
    rw [hmove]
    exact along_near (h axis) i

/-- A map that gives each coordinate of its result one of the argument's, up to sign and
shift, or the same value everywhere. -/
def AxisParallel (f : (ι → Int) → κ → Int) : Prop :=
  ∀ axis, (∃ c, ∀ p, f p axis = c) ∨ (∃ c source, ∀ p, f p axis = c + p source) ∨
    ∃ c source, ∀ p, f p axis = c - p source

theorem AxisParallel.pointAt {f : (ι → Int) → κ → Int} (hf : AxisParallel f) (M : Nat)
    (start stop : ι → Int) (i : Nat) :
    f (pointAt M start stop i) = RasterLine.pointAt M (f start) (f stop) i := by
  funext axis
  simp only [RasterLine.pointAt]
  obtain ⟨c, hc⟩ | ⟨c, source, hc⟩ | ⟨c, source, hc⟩ := hf axis
  · simp [hc]
  · have hdiff : f stop axis - f start axis = stop source - start source := by
      rw [hc, hc]
      omega
    rw [hdiff, hc, hc, Int.add_assoc, RasterLine.pointAt]
  · have hdiff : f stop axis - f start axis = -(stop source - start source) := by
      rw [hc, hc]
      omega
    rw [hdiff, along_neg, hc, hc, RasterLine.pointAt]
    omega

/-- Such a map takes lines to lines. -/
theorem AxisParallel.line {f : (ι → Int) → κ → Int} (hf : AxisParallel f) (M : Nat)
    (start stop : ι → Int) :
    (line M start stop).map f = RasterLine.line M (f start) (f stop) := by
  simp only [RasterLine.line, List.map_map]
  exact List.map_congr_left fun i _ => hf.pointAt M start stop i

end RasterLine
