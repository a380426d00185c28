import Mathlib.Algebra.BigOperators.Fin
import Mathlib.Algebra.Order.Chebyshev
import Mathlib.Tactic.FieldSimp
import Mathlib.Tactic.Ring

/-!
# Least squares over a list

Two quantities `f` and `g` of the members of a list, over any ordered field. The slope
of the line that fits them best is `covariation l f g / covariation l f f`, and the
square of their correlation is
`covariation l f g ^ 2 / (covariation l f f * covariation l g g)`. Both are quotients of
covariations, so what is needed of a regression is what signs and bounds those have.

- `covariation_shift`: where a quantity is counted from makes no difference, so times may
  be taken from the first sample.
- `covariation_nonneg`, `covariation_nonpos`: quantities that rise along the list vary
  together, and where one falls they vary against each other. This is Chebyshev's sum
  inequality along a list (`sum_mul_sum_le`), by induction on the list.
- `covariation_sq_le`: they vary together no more than each with itself (Cauchy and
  Schwarz), so that the correlation is a fraction.

Nothing is assumed of the list: it may be empty, and quantities may repeat. Where the
denominators vanish the quotients say nothing, and it is for the user to exclude that.
-/

namespace LeastSquares

variable {α K : Type*} [Field K]

/-- The mean of a quantity. -/
def mean (l : List α) (f : α → K) : K := (l.map f).sum / l.length

/-- The sum of the products of the deviations of two quantities from their means. -/
def covariation (l : List α) (f g : α → K) : K :=
  (l.map fun a => (f a - mean l f) * (g a - mean l g)).sum

theorem covariation_comm (l : List α) (f g : α → K) : covariation l f g = covariation l g f := by
  simp only [covariation, mul_comm]

theorem covariation_neg (l : List α) (f g : α → K) :
    covariation l f (fun a => -g a) = -covariation l f g := by
  have hmean : mean l (fun a => -g a) = -mean l g := by
    rw [mean, mean, ← neg_div, List.sum_neg, List.map_map]
    rfl
  rw [covariation, covariation, List.sum_neg, List.map_map, hmean]
  congr 1
  refine List.map_congr_left ?_
  intro a _
  rw [Function.comp_apply]
  ring

/-- The products of the deviations from any two values. -/
theorem sum_deviations (l : List α) (f g : α → K) (m n : K) :
    (l.map fun a => (f a - m) * (g a - n)).sum
      = (l.map fun a => f a * g a).sum - n * (l.map f).sum - m * (l.map g).sum
        + l.length * (m * n) := by
  induction l with
  | nil => simp
  | cons a l ih =>
    simp only [List.map_cons, List.sum_cons, ih, List.length_cons, Nat.cast_add, Nat.cast_one]
    ring

variable [LinearOrder K] [IsStrictOrderedRing K]

theorem covariation_eq {l : List α} (hl : l ≠ []) (f g : α → K) :
    covariation l f g
      = (l.map fun a => f a * g a).sum - (l.map f).sum * (l.map g).sum / l.length := by
  have hlen : (l.length : K) ≠ 0 := Nat.cast_ne_zero.mpr (List.length_pos_iff.mpr hl).ne'
  rw [covariation, sum_deviations, mean, mean]
  field_simp
  ring

/-- Where a quantity is counted from makes no difference to its deviations. -/
theorem covariation_shift (l : List α) (f g : α → K) (k : K) :
    covariation l (fun a => f a - k) g = covariation l f g := by
  by_cases hl : l = []
  · rw [hl]
    rfl
  · have hlen : (l.length : K) ≠ 0 := Nat.cast_ne_zero.mpr (List.length_pos_iff.mpr hl).ne'
    have hsum : (l.map fun a => f a - k).sum = (l.map f).sum - l.length * k := by
      have h := sum_deviations l f (fun _ => 1) k 0
      simpa [mul_comm] using h
    have hmean : mean l (fun a => f a - k) = mean l f - k := by
      rw [mean, mean, hsum, sub_div, mul_div_cancel_left₀ _ hlen]
    rw [covariation, covariation, hmean]
    simp only [sub_sub_sub_cancel_right]

/-! ## Signs -/

section

variable {l : List α} {f g : α → K}

/-- Chebyshev's sum inequality along a list. -/
theorem sum_mul_sum_le (hf : l.Pairwise fun a b => f a ≤ f b)
    (hg : l.Pairwise fun a b => g a ≤ g b) :
    (l.map f).sum * (l.map g).sum ≤ l.length * (l.map fun a => f a * g a).sum := by
  have hvary : Monovary (fun i : Fin l.length => f l[i.1]) fun i => g l[i.1] := by
    intro i j hlt
    rcases lt_trichotomy i j with hij | hij | hij
    · exact List.pairwise_iff_getElem.mp hf i j i.2 j.2 hij
    · exact absurd hlt (by rw [hij]; exact lt_irrefl _)
    · exact absurd hlt (not_lt.mpr (List.pairwise_iff_getElem.mp hg j i j.2 i.2 hij))
  have h := hvary.sum_mul_sum_le_card_mul_sum
  rwa [Fin.sum_univ_fun_getElem l f, Fin.sum_univ_fun_getElem l g,
    Fin.sum_univ_fun_getElem l fun a => f a * g a, Fintype.card_fin] at h

/-- **What rises along the list varies together.** -/
theorem covariation_nonneg (hf : l.Pairwise fun a b => f a ≤ f b)
    (hg : l.Pairwise fun a b => g a ≤ g b) : 0 ≤ covariation l f g := by
  by_cases hl : l = []
  · rw [hl]
    exact le_rfl
  · have hlen : (0 : K) < l.length := Nat.cast_pos.mpr (List.length_pos_iff.mpr hl)
    rw [covariation_eq hl, sub_nonneg, div_le_iff₀' hlen]
    exact sum_mul_sum_le hf hg

/-- **What rises varies against what falls.** -/
theorem covariation_nonpos (hf : l.Pairwise fun a b => f a ≤ f b)
    (hg : l.Pairwise fun a b => g b ≤ g a) : covariation l f g ≤ 0 := by
  have h := covariation_nonneg hf (g := fun a => -g a) (hg.imp fun hle => neg_le_neg hle)
  rwa [covariation_neg, neg_nonneg] at h

theorem covariation_self_nonneg (l : List α) (f : α → K) : 0 ≤ covariation l f f := by
  refine List.sum_nonneg ?_
  intro x hx
  obtain ⟨a, -, rfl⟩ := List.mem_map.mp hx
  exact mul_self_nonneg _

/-- **The correlation is no more than 1.** -/
theorem covariation_sq_le (l : List α) (f g : α → K) :
    covariation l f g * covariation l f g ≤ covariation l f f * covariation l g g := by
  have h := Finset.sum_mul_sq_le_sq_mul_sq Finset.univ
    (fun i : Fin l.length => f l[i.1] - mean l f) fun i => g l[i.1] - mean l g
  simp only [pow_two] at h
  rwa [Fin.sum_univ_fun_getElem l fun a => (f a - mean l f) * (g a - mean l g),
    Fin.sum_univ_fun_getElem l fun a => (f a - mean l f) * (f a - mean l f),
    Fin.sum_univ_fun_getElem l fun a => (g a - mean l g) * (g a - mean l g)] at h

end

end LeastSquares
