import Mathlib.Data.Real.Basic
import Mathlib.Tactic.NormNum.OfScientific
import MemoryPressure.Arithmetic
import MemoryPressure.Foundation.WeightedMean

/-!
# Exact arithmetic

The source computes its scores in `double`. `ExactDouble` is what a number type
is that rounds nothing: each number denotes a real, and the operations are those
of the reals. A result about it is about the source read in exact arithmetic; statements
about sums and means of the source are of this kind where rounding would make them false
by an ulp or two and not by their meaning.

- `ℚ` is such a type. Of `std::sqrt` the class asks no more than that the root of
  a positive number is positive, as not every root is rational.
- `val_clamp01`: `clamp01` cuts off to the unit interval.
- `val_foldl_sums`: the two accumulators of a weighted mean, as the sums they come to.
- `val_unitMean`: the guarded quotient in which both scores of the source end is
  the library's `unitMean`, so that what `Foundation/WeightedMean.lean` says of means is
  said of the domain score and of the aggregate score.
-/

namespace MemoryPressure

open WeightedMean (total weight unitMean)

/-- Numbers that denote reals, with the operations of the reals. -/
class ExactDouble (F : Type) [Double F] where
  /-- The real a number denotes. -/
  val : F → ℝ
  val_add : ∀ a b : F, val (a + b) = val a + val b
  val_sub : ∀ a b : F, val (a - b) = val a - val b
  val_mul : ∀ a b : F, val (a * b) = val a * val b
  val_div : ∀ a b : F, val (a / b) = val a / val b
  val_neg : ∀ a : F, val (-a) = -val a
  val_lt : ∀ a b : F, a < b ↔ val a < val b
  val_le : ∀ a b : F, a ≤ b ↔ val a ≤ val b
  val_ofInt : ∀ n : Int, val (Double.ofInt n) = n
  val_ofScientific : ∀ (m : Nat) (s : Bool) (e : Nat),
    val (OfScientific.ofScientific m s e) = OfScientific.ofScientific m s e
  sqrt_pos : ∀ a : F, 0 < val a → 0 < val (Double.sqrt a)

namespace ExactDouble

attribute [simp] val_add val_sub val_mul val_div val_neg val_ofInt

/-- The root of a positive rational is positive. -/
theorem sqrt_pos_rat {q : ℚ} (h : 0 < q) : 0 < Rat.sqrt q := by
  have hnum : 0 < q.num := Rat.num_pos.mpr h
  have hden : 0 < q.den := q.den_pos
  rw [Rat.sqrt, Rat.mkRat_eq_div]
  refine div_pos ?_ ?_
  · have hroot : 0 < Nat.sqrt q.num.toNat := Nat.sqrt_pos.mpr (by omega)
    rw [Int.sqrt]
    exact_mod_cast hroot
  · exact_mod_cast Nat.sqrt_pos.mpr hden

instance : ExactDouble ℚ where
  val q := q
  val_add := Rat.cast_add
  val_sub := Rat.cast_sub
  val_mul := Rat.cast_mul
  val_div := Rat.cast_div
  val_neg := Rat.cast_neg
  val_lt _ _ := Rat.cast_lt.symm
  val_le _ _ := Rat.cast_le.symm
  val_ofInt n := Rat.cast_intCast n
  val_ofScientific := Rat.cast_ofScientific
  sqrt_pos _ h := Rat.cast_pos.mpr (sqrt_pos_rat (Rat.cast_pos.mp h))

variable {F : Type} [Double F] [ExactDouble F]

@[simp] theorem val_zero : val (0.0 : F) = 0 := by
  rw [val_ofScientific]
  norm_num

@[simp] theorem val_one : val (1.0 : F) = 1 := by
  rw [val_ofScientific]
  norm_num

@[simp] theorem val_ofNat (n : Nat) : val (Double.ofNat n : F) = n := by
  rw [Double.ofNat, val_ofInt, Int.cast_natCast]

@[simp] theorem val_ofUInt64 (n : UInt64) : val (Double.ofUInt64 n : F) = n.toNat := by
  rw [Double.ofUInt64, val_ofInt, Int.cast_natCast]

/-- `clamp01` cuts off to the unit interval. -/
@[simp] theorem val_clamp01 (a : F) : val (Double.clamp01 a) = max 0 (min 1 (val a)) := by
  unfold Double.clamp01
  simp only [gt_iff_lt, val_lt, val_zero, val_one]
  split_ifs with hlow hhigh
  · rw [min_eq_right (hlow.le.trans zero_le_one), max_eq_left hlow.le, val_zero]
  · rw [min_eq_left hhigh.le, max_eq_right zero_le_one, val_one]
  · rw [min_eq_right (not_lt.mp hhigh), max_eq_right (not_lt.mp hlow)]

@[simp] theorem val_min (a b : F) : val (Double.min a b) = min (val a) (val b) := by
  unfold Double.min
  simp only [val_lt]
  split_ifs with h
  · exact (min_eq_right h.le).symm
  · exact (min_eq_left (not_lt.mp h)).symm

theorem clamp01_unit (a : F) : 0 ≤ val (Double.clamp01 a) ∧ val (Double.clamp01 a) ≤ 1 := by
  rw [val_clamp01]
  exact ⟨le_max_left _ _, max_le zero_le_one (min_le_left _ _)⟩

theorem clamp01_mono {a b : F} (h : val a ≤ val b) :
    val (Double.clamp01 a) ≤ val (Double.clamp01 b) := by
  rw [val_clamp01, val_clamp01]
  exact max_le_max le_rfl (min_le_min le_rfl h)

/-! ## Weighted means -/

/-- What two accumulators that add up weighted values and weights come to. -/
theorem val_foldl_sums {α : Type} {w v : α → F} {f : F × F → α → F × F}
    (hf : ∀ acc a, val (f acc a).1 = val acc.1 + val (w a) * val (v a) ∧
      val (f acc a).2 = val acc.2 + val (w a)) (rows : List α) (acc : F × F) :
    val (rows.foldl f acc).1 = val acc.1 + total (rows.map fun a => (val (w a), val (v a))) ∧
      val (rows.foldl f acc).2 = val acc.2 + weight (rows.map fun a => (val (w a), val (v a))) := by
  induction rows generalizing acc with
  | nil => simp
  | cons a rows ih =>
    obtain ⟨htotal, hweight⟩ := ih (f acc a)
    obtain ⟨hone, hone'⟩ := hf acc a
    rw [List.foldl_cons, htotal, hweight, hone, hone']
    constructor
    · rw [List.map_cons, WeightedMean.total_cons, add_assoc]
    · rw [List.map_cons, WeightedMean.weight_cons, add_assoc]

/-- **The guarded quotient** of the two sums is the mean cut off to the unit interval. -/
theorem val_unitMean {sums : F × F} {rows : List (ℝ × ℝ)} (htotal : val sums.1 = total rows)
    (hweight : val sums.2 = weight rows) :
    val (if sums.2 > 0.0 then Double.clamp01 (sums.1 / sums.2) else 0.0) = unitMean rows := by
  have hpos : sums.2 > 0.0 ↔ 0 < weight rows := by
    rw [gt_iff_lt, val_lt, val_zero, hweight]
  rw [unitMean]
  by_cases h : 0 < weight rows
  · rw [if_pos h, if_pos (hpos.mpr h), val_clamp01, val_div, htotal, hweight]
    rfl
  · rw [if_neg h, if_neg (mt hpos.mp h), val_zero]

end ExactDouble

end MemoryPressure
