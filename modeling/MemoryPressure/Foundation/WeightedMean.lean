import Mathlib.Algebra.Order.BigOperators.Group.List
import Mathlib.Algebra.Order.Field.Basic
import Mathlib.Data.List.Forall2
import Mathlib.Data.Finset.Max
import Mathlib.Tactic.Linarith
import Mathlib.Tactic.Ring

/-!
# Weighted means

Rows of a weight and a value, over any ordered field. `mean` is the sum of the
weighted values over the sum of the weights; `unitMean` cuts it off to the unit
interval, and is 0 where the weights have no positive sum.

- `le_mean`, `mean_le`: without negative weights a mean lies between bounds of its
  values, so `unitMean` cuts nothing off (`unitMean_eq_mean`).
- `unitMean_mono`: the mean grows with the values, row by row (`Below`), without any
  assumption on the sum of the weights.
- `unitMean_le_iff`: what comparing two totals of the same weight says of the means.

**Which weights are usable.** `Usable.between` and `usable_of_between` answer when
`unitMean` is between the smallest and the largest value whatever the values are: exactly
when no weight is negative and not all of them are zero. For the hard direction it is
enough to look at two assignments of values: all rows at 1, which finds a sum that is not
positive, and 1 on the negative weights with less elsewhere (`against`), which finds a
negative weight.
-/

namespace WeightedMean

variable {K : Type} [Field K]

/-- The sum of the weights. -/
def weight : List (K × K) → K
  | [] => 0
  | row :: rows => row.1 + weight rows

/-- The sum of the weighted values. -/
def total : List (K × K) → K
  | [] => 0
  | row :: rows => row.1 * row.2 + total rows

/-- The weighted mean. -/
def mean (rows : List (K × K)) : K := total rows / weight rows

@[simp] theorem weight_nil : weight ([] : List (K × K)) = 0 := rfl
@[simp] theorem total_nil : total ([] : List (K × K)) = 0 := rfl

@[simp] theorem weight_cons (row : K × K) (rows : List (K × K)) :
    weight (row :: rows) = row.1 + weight rows := rfl

@[simp] theorem total_cons (row : K × K) (rows : List (K × K)) :
    total (row :: rows) = row.1 * row.2 + total rows := rfl

@[simp] theorem weight_append (rows rows' : List (K × K)) :
    weight (rows ++ rows') = weight rows + weight rows' := by
  induction rows with
  | nil => exact (zero_add _).symm
  | cons row rows ih => rw [List.cons_append, weight_cons, weight_cons, ih, add_assoc]

@[simp] theorem total_append (rows rows' : List (K × K)) :
    total (rows ++ rows') = total rows + total rows' := by
  induction rows with
  | nil => exact (zero_add _).symm
  | cons row rows ih => rw [List.cons_append, total_cons, total_cons, ih, add_assoc]

theorem weight_map (weights : List K) (f : K → K) :
    weight (weights.map fun w => (w, f w)) = weights.sum := by
  induction weights with
  | nil => rfl
  | cons w weights ih => rw [List.map_cons, weight_cons, ih, List.sum_cons]

theorem weight_zip {weights values : List K} (hlen : values.length = weights.length) :
    weight (weights.zip values) = weights.sum := by
  induction weights generalizing values with
  | nil => rfl
  | cons w weights ih =>
    cases values with
    | nil => cases hlen
    | cons v values =>
      rw [List.zip_cons_cons, weight_cons, ih (Nat.succ.inj hlen), List.sum_cons]

variable [LinearOrder K] [IsStrictOrderedRing K]

/-! ## Bounds -/

section

variable {rows rows' : List (K × K)} {lo hi : K}

/-- Values from `lo` on weigh at least as much as `lo` throughout. -/
theorem mul_weight_le_total (hw : ∀ row ∈ rows, 0 ≤ row.1) (hlo : ∀ row ∈ rows, lo ≤ row.2) :
    lo * weight rows ≤ total rows := by
  induction rows with
  | nil => simp
  | cons row rows ih =>
    obtain ⟨hrow, hrows⟩ := List.forall_mem_cons.mp hw
    obtain ⟨hrlo, hrslo⟩ := List.forall_mem_cons.mp hlo
    calc lo * weight (row :: rows) = row.1 * lo + lo * weight rows := by
          rw [weight_cons]
          ring
      _ ≤ row.1 * row.2 + total rows :=
        add_le_add (mul_le_mul_of_nonneg_left hrlo hrow) (ih hrows hrslo)

/-- Values up to `hi` weigh at most as much as `hi` throughout. -/
theorem total_le_mul_weight (hw : ∀ row ∈ rows, 0 ≤ row.1) (hhi : ∀ row ∈ rows, row.2 ≤ hi) :
    total rows ≤ hi * weight rows := by
  induction rows with
  | nil => simp
  | cons row rows ih =>
    obtain ⟨hrow, hrows⟩ := List.forall_mem_cons.mp hw
    obtain ⟨hrhi, hrshi⟩ := List.forall_mem_cons.mp hhi
    calc total (row :: rows) ≤ row.1 * hi + hi * weight rows :=
          add_le_add (mul_le_mul_of_nonneg_left hrhi hrow) (ih hrows hrshi)
      _ = hi * weight (row :: rows) := by
          rw [weight_cons]
          ring

/-- **A mean is at least what its values are at least.** -/
theorem le_mean (hw : ∀ row ∈ rows, 0 ≤ row.1) (hpos : 0 < weight rows)
    (hlo : ∀ row ∈ rows, lo ≤ row.2) : lo ≤ mean rows := by
  rw [mean, le_div_iff₀ hpos]
  exact mul_weight_le_total hw hlo

/-- **A mean is at most what its values are at most.** -/
theorem mean_le (hw : ∀ row ∈ rows, 0 ≤ row.1) (hpos : 0 < weight rows)
    (hhi : ∀ row ∈ rows, row.2 ≤ hi) : mean rows ≤ hi := by
  rw [mean, div_le_iff₀ hpos]
  exact total_le_mul_weight hw hhi

/-- One list of rows is above another: the same weights, and values in order. -/
def Below (rows rows' : List (K × K)) : Prop :=
  List.Forall₂ (fun row row' => row.1 = row'.1 ∧ row.2 ≤ row'.2) rows rows'

omit [IsStrictOrderedRing K] in
theorem Below.weight_eq (h : Below rows rows') : weight rows = weight rows' := by
  induction h with
  | nil => rfl
  | cons hrow _ ih => rw [weight_cons, weight_cons, hrow.1, ih]

theorem Below.total_le (h : Below rows rows') (hw : ∀ row ∈ rows, 0 ≤ row.1) :
    total rows ≤ total rows' := by
  induction h with
  | nil => exact le_rfl
  | cons hrow _ ih =>
    obtain ⟨hnonneg, hrows⟩ := List.forall_mem_cons.mp hw
    rw [total_cons, total_cons, ← hrow.1]
    exact add_le_add (mul_le_mul_of_nonneg_left hrow.2 hnonneg) (ih hrows)

end

/-! ## Cut off to the unit interval -/

/-- The mean cut off to the unit interval; 0 where the weights have no positive sum. -/
def unitMean (rows : List (K × K)) : K :=
  if 0 < weight rows then max 0 (min 1 (mean rows)) else 0

section

variable {rows rows' : List (K × K)}

omit [IsStrictOrderedRing K] in
theorem unitMean_nonneg (rows : List (K × K)) : 0 ≤ unitMean rows := by
  rw [unitMean]
  split_ifs
  · exact le_max_left _ _
  · exact le_rfl

theorem unitMean_le_one (rows : List (K × K)) : unitMean rows ≤ 1 := by
  rw [unitMean]
  split_ifs
  · exact max_le zero_le_one (min_le_left _ _)
  · exact zero_le_one

/-- **Values in the unit interval are not cut off.** -/
theorem unitMean_eq_mean (hw : ∀ row ∈ rows, 0 ≤ row.1) (hpos : 0 < weight rows)
    (hunit : ∀ row ∈ rows, 0 ≤ row.2 ∧ row.2 ≤ 1) : unitMean rows = mean rows := by
  have hlow : 0 ≤ mean rows := le_mean hw hpos fun row hrow => (hunit row hrow).1
  have hhigh : mean rows ≤ 1 := mean_le hw hpos fun row hrow => (hunit row hrow).2
  rw [unitMean, if_pos hpos, min_eq_right hhigh, max_eq_right hlow]

/-- **The mean grows with the values.** -/
theorem unitMean_mono (h : Below rows rows') (hw : ∀ row ∈ rows, 0 ≤ row.1) :
    unitMean rows ≤ unitMean rows' := by
  rw [unitMean, unitMean, ← h.weight_eq]
  split_ifs with hpos
  · have hmean : mean rows ≤ mean rows' := by
      rw [mean, mean, ← h.weight_eq]
      exact div_le_div_of_nonneg_right (h.total_le hw) hpos.le
    exact max_le_max le_rfl (min_le_min le_rfl hmean)
  · exact le_rfl

/-- Among two lists of one positive weight, the one of the larger total is cut off to
less only where both are cut off alike. -/
theorem unitMean_le_iff (hweight : weight rows = weight rows') (hpos : 0 < weight rows)
    (htotal : total rows' ≤ total rows) :
    unitMean rows ≤ unitMean rows' ↔
      total rows = total rows' ∨ total rows ≤ 0 ∨ weight rows' ≤ total rows' := by
  have hpos' : 0 < weight rows' := hweight ▸ hpos
  rw [unitMean, unitMean, if_pos hpos, if_pos hpos']
  have hle : mean rows ≤ 0 ↔ total rows ≤ 0 := by
    rw [mean, div_le_iff₀ hpos, zero_mul]
  have hge : 1 ≤ mean rows' ↔ weight rows' ≤ total rows' := by
    rw [mean, le_div_iff₀ hpos', one_mul]
  have heq : mean rows = mean rows' ↔ total rows = total rows' := by
    rw [mean, mean, hweight, div_left_inj' hpos'.ne']
  have hmean : mean rows' ≤ mean rows := by
    rw [mean, mean, hweight]
    exact div_le_div_of_nonneg_right htotal hpos'.le
  rw [← hle, ← hge, ← heq]
  constructor
  · intro h
    by_cases hzero : mean rows ≤ 0
    · exact Or.inr (Or.inl hzero)
    · by_cases hone : 1 ≤ mean rows'
      · exact Or.inr (Or.inr hone)
      · -- neither end is reached, so the means are in order as they are
        left
        rw [not_le] at hzero hone
        rcases le_max_iff.mp (le_trans (le_max_right _ _) h) with hlow | hlow
        · rcases min_le_iff.mp hlow with habs | habs
          · exact absurd habs (not_le.mpr one_pos)
          · exact absurd habs (not_le.mpr hzero)
        · rw [min_eq_right hone.le] at hlow
          rcases min_le_iff.mp hlow with habs | hmeans
          · exact absurd habs (not_le.mpr hone)
          · exact le_antisymm hmeans hmean
  · rintro (h | h | h)
    · rw [h]
    · rw [max_eq_left (le_trans (min_le_right _ _) h)]
      exact le_max_left _ _
    · rw [min_eq_left h, max_eq_right zero_le_one]
      exact max_le zero_le_one (min_le_left _ _)

end

/-! ## Which weights keep it between the values -/

/-- A number is between two of a list. -/
def Between (values : List K) (x : K) : Prop := (∃ v ∈ values, v ≤ x) ∧ ∃ v ∈ values, x ≤ v

/-- Weights that are not negative and not all zero. -/
structure Usable (weights : List K) : Prop where
  nonneg : ∀ w ∈ weights, 0 ≤ w
  positive : ∃ w ∈ weights, 0 < w

section

variable {weights : List K}

theorem Usable.sum_pos (h : Usable weights) : 0 < weights.sum := by
  obtain ⟨hnonneg, w, hw, hpos⟩ := h
  obtain ⟨before, after, rfl⟩ := List.append_of_mem hw
  have hbefore : 0 ≤ before.sum := List.sum_nonneg fun x hx =>
    hnonneg x (List.mem_append_left _ hx)
  have hafter : 0 ≤ after.sum := List.sum_nonneg fun x hx =>
    hnonneg x (List.mem_append_right _ (List.mem_cons_of_mem w hx))
  rw [List.sum_append, List.sum_cons]
  linarith

omit [Field K] [IsStrictOrderedRing K] in
/-- A list that is not empty has a least and a greatest value. -/
theorem exists_bounds {values : List K} (hne : values ≠ []) :
    (∃ lo ∈ values, ∀ v ∈ values, lo ≤ v) ∧ ∃ hi ∈ values, ∀ v ∈ values, v ≤ hi := by
  have hfin : values.toFinset.Nonempty := List.toFinset_nonempty_iff _ |>.mpr hne
  obtain ⟨lo, hlo, hleast⟩ := values.toFinset.exists_min_image id hfin
  obtain ⟨hi, hhi, hgreatest⟩ := values.toFinset.exists_max_image id hfin
  simp only [List.mem_toFinset, id_eq] at hlo hleast hhi hgreatest
  exact ⟨⟨lo, hlo, hleast⟩, hi, hhi, hgreatest⟩

/-- **Usable weights keep it between the values.** -/
theorem Usable.between (h : Usable weights) {values : List K}
    (hlen : values.length = weights.length) (hunit : ∀ v ∈ values, 0 ≤ v ∧ v ≤ 1) :
    Between values (unitMean (weights.zip values)) := by
  have hpos : 0 < weight (weights.zip values) := (weight_zip hlen).symm ▸ h.sum_pos
  have hw : ∀ row ∈ weights.zip values, 0 ≤ row.1 := fun row hrow =>
    h.nonneg row.1 (List.of_mem_zip hrow).1
  have hne : values ≠ [] := by
    rintro rfl
    rw [List.zip_nil_right] at hpos
    exact absurd hpos (lt_irrefl 0)
  obtain ⟨⟨lo, hlo, hleast⟩, hi, hhi, hgreatest⟩ := exists_bounds hne
  rw [unitMean_eq_mean hw hpos fun row hrow => hunit row.2 (List.of_mem_zip hrow).2]
  refine ⟨⟨lo, hlo, ?_⟩, hi, hhi, ?_⟩
  · exact le_mean hw hpos fun row hrow => hleast row.2 (List.of_mem_zip hrow).2
  · exact mean_le hw hpos fun row hrow => hgreatest row.2 (List.of_mem_zip hrow).2

/-- A value for each weight: `high` where it is negative, `low` elsewhere. -/
def against (low high : K) (w : K) : K := if w < 0 then high else low

/-- Negative weights on high values pull a total below what the low ones weigh. -/
theorem total_against_le {low high : K} (hle : low ≤ high) (weights : List K) :
    total (weights.map fun w => (w, against low high w))
      ≤ low * weight (weights.map fun w => (w, against low high w)) := by
  induction weights with
  | nil => simp
  | cons w weights ih =>
    have hone : w * against low high w ≤ low * w := by
      rw [against]
      split_ifs with hneg
      · rw [mul_comm low w]
        exact mul_le_mul_of_nonpos_left hle hneg.le
      · exact (mul_comm w low).le
    rw [List.map_cons, total_cons, weight_cons, mul_add]
    exact add_le_add hone ih

theorem total_against_lt {low high : K} (hlt : low < high) (hneg : ∃ w ∈ weights, w < 0) :
    total (weights.map fun w => (w, against low high w))
      < low * weight (weights.map fun w => (w, against low high w)) := by
  obtain ⟨w, hw, hneg⟩ := hneg
  obtain ⟨before, after, rfl⟩ := List.append_of_mem hw
  have hbefore := total_against_le hlt.le before
  have hafter := total_against_le hlt.le after
  have hone : w * against low high w < low * w := by
    rw [against, if_pos hneg, mul_comm low w]
    exact mul_lt_mul_of_neg_left hlt hneg
  rw [List.map_append, List.map_cons, total_append, weight_append, total_cons, weight_cons]
  linarith

omit [IsStrictOrderedRing K] in
theorem against_bounds {low high : K} (hle : low ≤ high) (w : K) :
    low ≤ against low high w ∧ against low high w ≤ high := by
  rw [against]
  split_ifs
  · exact ⟨hle, le_rfl⟩
  · exact ⟨le_rfl, hle⟩

/-- **Weights that keep it between the values are usable**: those that are all 1, and
those that are 1 where a weight is negative and less elsewhere. -/
theorem usable_of_between (low : K) (hlow : 0 < low) (hone : low < 1)
    (hall : Between (weights.map fun _ => 1) (unitMean (weights.map fun w => (w, 1))))
    (hagainst : Between (weights.map (against low 1))
      (unitMean (weights.map fun w => (w, against low 1 w)))) : Usable weights := by
  have hpos : 0 < weights.sum := by
    obtain ⟨⟨v, hv, hle⟩, -⟩ := hall
    obtain ⟨w, -, rfl⟩ := List.mem_map.mp hv
    by_contra hnot
    rw [unitMean, weight_map weights fun _ => 1, if_neg hnot] at hle
    exact absurd hle (not_le.mpr one_pos)
  refine ⟨?_, ?_⟩
  · by_contra hneg
    push Not at hneg
    -- the negative weights pull the mean below `low`, which every value is at least
    obtain ⟨⟨v, hv, hle⟩, -⟩ := hagainst
    obtain ⟨w, -, rfl⟩ := List.mem_map.mp hv
    have htotal := total_against_lt hone hneg
    have hmean : mean (weights.map fun w => (w, against low 1 w)) < low := by
      rw [mean, weight_map, div_lt_iff₀ hpos]
      rwa [weight_map] at htotal
    rw [unitMean, weight_map, if_pos hpos] at hle
    rcases le_max_iff.mp ((against_bounds hone.le w).1.trans hle) with hzero | hmin
    · exact absurd hzero (not_le.mpr hlow)
    · exact absurd (hmin.trans (min_le_right _ _)) (not_le.mpr hmean)
  · by_contra hnot
    push Not at hnot
    have hsum : weights.sum ≤ weights.length • 0 := List.sum_le_card_nsmul _ _ hnot
    rw [nsmul_zero] at hsum
    exact absurd hsum (not_le.mpr hpos)

end

end WeightedMean
