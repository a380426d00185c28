import MemoryPressure.Exact
import MemoryPressure.Foundation.LeastSquares
import MemoryPressure.Trend

/-!
# The direction of a trend (`core.cpp:216`)

In exact arithmetic the sums of `estimate` are the covariations of the times and the
committed bytes of the window, so what holds of a least-squares line holds of a trend.

- `estimate_of_few`, `estimate_of_still`, `estimate_of_moving`: the three ways an
  estimate can go.
- `val_sums`: the sums are covariations.
- `trend_follows_data`: a trend does not go against usage that only rises or only falls,
  and its squared correlation is a fraction before it is clamped.

**Two halves.** The first is the code: `estimate` computes its means in one loop and its
sums in another, tests whether there are two samples and whether time passes, and clamps
`r2` before it takes its root. `sums`, `Moments.rate`, `Moments.squaredCorrelation` and
`Moments.fit` are its intermediate values under names of their own, and the three lemmas
tie them to what it returns. The second is the mathematics, of `LeastSquares.lean`: the
denotations of the sums are covariations, which have the sign of the data where both go
one way (`rate_of_covariation`), and satisfy Cauchy's inequality
(`squaredCorrelation_unit`). So the clamps change nothing (`fit_sums`).

Times are converted to `double` before they are subtracted, so that nothing wraps around;
the sums are covariations wherever time counts from. The window may repeat a time. Rounding
may push `r2` out of the unit interval, which is what the clamps are there for.
-/

namespace MemoryPressure

open ExactDouble (val val_zero val_one val_le val_lt)
open LeastSquares (mean covariation)

namespace TrendEstimator

/-! ## The three ways -/

section

variable {F : Type} [Double F]

/-- `r2` as it is computed (core.cpp:239). -/
def Moments.squaredCorrelation (m : Moments F) : F :=
  if m.varc > 0.0 then (m.cov * m.cov) / (m.var * m.varc) else 0.0

/-- `r2` (core.cpp:239): how well the samples fit the line. -/
def Moments.fit (m : Moments F) : F :=
  let r2 := if m.varc > 0.0 then (m.cov * m.cov) / (m.var * m.varc) else 0.0
  let r2 := if r2 < 0.0 then 0.0 else r2
  if r2 > 1.0 then 1.0 else r2

/-- How well the samples fit is the squared correlation, clamped to the unit interval
(core.cpp:240). -/
theorem Moments.fit_eq (m : Moments F) :
    m.fit = if (if m.squaredCorrelation < 0.0 then 0.0 else m.squaredCorrelation) > 1.0 then 1.0
      else if m.squaredCorrelation < 0.0 then 0.0 else m.squaredCorrelation := rfl

/-- The sums over a window (core.cpp:219–230); times count from its first sample. -/
def sums (samples : List TrendSample) : Moments F :=
  let t0 : F := Double.ofUInt64 ((samples.head?.map TrendSample.tMs).getD 0)
  moments t0 (means t0 samples).1 (means t0 samples).2 samples

/-- The rate of the line (core.cpp:232). -/
def Moments.rate (m : Moments F) : F := m.cov / m.var * 1000.0

/-- The direction of a rate (core.cpp:235). -/
def directionOf (rate : F) : TrendDirection :=
  if rate > 1.0 then .rising else if rate < -1.0 then .falling else .flat

variable {e : TrendEstimator}

/-- With fewer than two samples nothing is known. -/
theorem estimate_of_few (h : e.samples.length < 2) :
    (e.estimate : TrendEstimate F) = { samples := e.samples.length } := by
  obtain ⟨window, age, samples⟩ := e
  match samples with
  | [] => rfl
  | [_] => rfl
  | _ :: _ :: _ => exact absurd h (by simp)

/-- Where time stands still the trend is flat. -/
theorem estimate_of_still (h : 2 ≤ e.samples.length)
    (hvar : (sums e.samples : Moments F).var ≤ 0.0) :
    (e.estimate : TrendEstimate F)
      = { direction := .flat, confidence := 0.0, samples := e.samples.length } := by
  obtain ⟨window, age, samples⟩ := e
  match samples with
  | [] => cases h
  | [_] => exact absurd h (by simp)
  | _ :: _ :: _ => exact if_pos hvar

/-- Where time passes, the trend has the direction of the regression line, and the
confidence is the root of its squared correlation, damped by how full the window is. -/
theorem estimate_of_moving (h : 2 ≤ e.samples.length)
    (hvar : ¬ (sums e.samples : Moments F).var ≤ 0.0) :
    (e.estimate : TrendEstimate F)
      = { direction := directionOf (sums e.samples : Moments F).rate
          rate := (sums e.samples : Moments F).rate
          confidence := Double.clamp01 (Double.sqrt (sums e.samples : Moments F).fit *
            Double.min 1.0 (Double.ofNat e.samples.length / Double.ofNat (max e.windowSamples 1)))
          samples := e.samples.length } := by
  obtain ⟨window, age, samples⟩ := e
  match samples with
  | [] => cases h
  | [_] => exact absurd h (by simp)
  | _ :: _ :: _ => exact if_neg hvar

end

/-! ## In exact arithmetic -/

variable {F : Type} [Double F] [ExactDouble F]

theorem Moments.val_rate (m : Moments F) : val m.rate = val m.cov / val m.var * 1000 := by
  rw [Moments.rate, ExactDouble.val_mul, ExactDouble.val_div, ExactDouble.val_ofScientific]
  norm_num

theorem directionOf_falling {rate : F} (h : directionOf rate = .falling) : val rate < -1 := by
  unfold directionOf at h
  split_ifs at h with hup hdown
  rwa [val_lt, ExactDouble.val_neg, val_one] at hdown

theorem directionOf_rising {rate : F} (h : directionOf rate = .rising) : 1 < val rate := by
  unfold directionOf at h
  split_ifs at h with hup
  rwa [gt_iff_lt, val_lt, val_one] at hup

/-- The time of a sample. -/
def time (s : TrendSample) : ℝ := s.tMs.toNat

/-- The committed bytes of a sample. -/
def bytes (s : TrendSample) : ℝ := s.committed.toNat

/-- The first loop computes the means. -/
theorem val_means (t0 : F) (samples : List TrendSample) :
    val (means t0 samples).1 = mean samples (fun s => time s - val t0) ∧
      val (means t0 samples).2 = mean samples bytes := by
  have hfold : ∀ acc : F × F,
      let out := samples.foldl (fun (acc : F × F) s =>
        (acc.1 + (Double.ofUInt64 s.tMs - t0), acc.2 + Double.ofUInt64 s.committed)) acc
      val out.1 = val acc.1 + (samples.map fun s => time s - val t0).sum ∧
        val out.2 = val acc.2 + (samples.map bytes).sum := by
    induction samples with
    | nil => simp
    | cons s samples ih =>
      intro acc
      obtain ⟨hfst, hsnd⟩ :=
        ih (acc.1 + (Double.ofUInt64 s.tMs - t0), acc.2 + Double.ofUInt64 s.committed)
      dsimp only at hfst hsnd ⊢
      rw [List.foldl_cons, hfst, hsnd]
      simp [time, bytes, add_assoc]
  obtain ⟨hfst, hsnd⟩ := hfold (0.0, 0.0)
  rw [means, mean, mean]
  dsimp only at hfst hsnd ⊢
  rw [ExactDouble.val_div, ExactDouble.val_div, hfst, hsnd]
  simp

/-- The second loop adds up products of deviations. -/
theorem val_moments (t0 mt mc : F) (samples : List TrendSample) :
    let m := moments t0 mt mc samples
    let dt : TrendSample → ℝ := fun s => time s - val t0 - val mt
    let dc : TrendSample → ℝ := fun s => bytes s - val mc
    val m.cov = (samples.map fun s => dt s * dc s).sum ∧
      val m.var = (samples.map fun s => dt s * dt s).sum ∧
      val m.varc = (samples.map fun s => dc s * dc s).sum := by
  intro m dt dc
  have hfold : ∀ acc : Moments F,
      let out := samples.foldl (fun (acc : Moments F) s =>
        { cov := acc.cov + (Double.ofUInt64 s.tMs - t0 - mt) * (Double.ofUInt64 s.committed - mc)
          var := acc.var + (Double.ofUInt64 s.tMs - t0 - mt) * (Double.ofUInt64 s.tMs - t0 - mt)
          varc := acc.varc
            + (Double.ofUInt64 s.committed - mc) * (Double.ofUInt64 s.committed - mc) }) acc
      val out.cov = val acc.cov + (samples.map fun s => dt s * dc s).sum ∧
        val out.var = val acc.var + (samples.map fun s => dt s * dt s).sum ∧
        val out.varc = val acc.varc + (samples.map fun s => dc s * dc s).sum := by
    induction samples with
    | nil => simp
    | cons s samples ih =>
      intro acc
      obtain ⟨hcov, hvar, hvarc⟩ := ih _
      dsimp only at hcov hvar hvarc ⊢
      rw [List.foldl_cons, hcov, hvar, hvarc]
      simp [dt, dc, time, bytes, add_assoc]
  obtain ⟨hcov, hvar, hvarc⟩ := hfold {}
  simp only [val_zero, zero_add] at hcov hvar hvarc
  exact ⟨hcov, hvar, hvarc⟩

/-- **The sums are covariations**, wherever time counts from. -/
theorem val_sums (samples : List TrendSample) :
    val (sums samples : Moments F).cov = covariation samples time bytes ∧
      val (sums samples : Moments F).var = covariation samples time time ∧
      val (sums samples : Moments F).varc = covariation samples bytes bytes := by
  let t0 : F := Double.ofUInt64 ((samples.head?.map TrendSample.tMs).getD 0)
  obtain ⟨hmt, hmc⟩ := val_means t0 samples
  obtain ⟨hcov, hvar, hvarc⟩ := val_moments t0 (means t0 samples).1 (means t0 samples).2 samples
  rw [hmt] at hcov hvar
  rw [hmc] at hcov hvarc
  have hshift := LeastSquares.covariation_shift samples time
  refine ⟨hcov.trans (hshift bytes (val t0)), ?_, hvarc⟩
  calc val (sums samples : Moments F).var
      = covariation samples (fun s => time s - val t0) fun s => time s - val t0 := hvar
    _ = covariation samples time fun s => time s - val t0 := hshift _ _
    _ = covariation samples (fun s => time s - val t0) time := LeastSquares.covariation_comm ..
    _ = covariation samples time time := hshift _ _

/-- **The squared correlation is a fraction**, of any window. -/
theorem squaredCorrelation_unit (samples : List TrendSample) :
    0 ≤ val (sums samples : Moments F).squaredCorrelation ∧
      val (sums samples : Moments F).squaredCorrelation ≤ 1 := by
  obtain ⟨hcov, hvar, hvarc⟩ := val_sums (F := F) samples
  have hsq := LeastSquares.covariation_sq_le samples time bytes
  have hnonneg := mul_nonneg (LeastSquares.covariation_self_nonneg samples time)
    (LeastSquares.covariation_self_nonneg samples bytes)
  rw [← hcov, ← hvar, ← hvarc] at hsq
  rw [← hvar, ← hvarc] at hnonneg
  unfold Moments.squaredCorrelation
  split_ifs
  · rw [ExactDouble.val_div, ExactDouble.val_mul, ExactDouble.val_mul]
    exact ⟨div_nonneg (mul_self_nonneg _) hnonneg, div_le_one_of_le₀ hsq hnonneg⟩
  · exact ⟨val_zero.ge, val_zero.trans_le zero_le_one⟩

/-- Of the sums of a window, how well the samples fit is the squared correlation: the clamps
leave it as it is. -/
theorem fit_sums (samples : List TrendSample) :
    (sums samples : Moments F).fit = (sums samples).squaredCorrelation := by
  obtain ⟨hnonneg, hle⟩ := squaredCorrelation_unit (F := F) samples
  rw [← val_zero (F := F), ← not_lt, ← val_lt] at hnonneg
  rw [← val_one (F := F), ← not_lt, ← val_lt] at hle
  rw [Moments.fit_eq, if_neg hnonneg, if_neg hle]

/-! ## Usage in one direction -/

/-- `r2` before it is clamped, where `estimate` gets to it. -/
def unclampedFit (e : TrendEstimator) : Option F :=
  if e.samples.length < 2 then none
  else if (sums e.samples : Moments F).var ≤ 0.0 then none
  else some (sums e.samples : Moments F).squaredCorrelation

variable {e : TrendEstimator}

/-- The rate of any estimate has the sign of the covariation. -/
theorem rate_of_covariation (e : TrendEstimator) :
    (0 ≤ covariation e.samples time bytes → 0 ≤ val (e.estimate : TrendEstimate F).rate) ∧
      (covariation e.samples time bytes ≤ 0 → val (e.estimate : TrendEstimate F).rate ≤ 0) := by
  rcases Nat.lt_or_ge e.samples.length 2 with hfew | hlen
  · rw [estimate_of_few hfew]
    exact ⟨fun _ => val_zero.ge, fun _ => val_zero.le⟩
  by_cases hvar : (sums e.samples : Moments F).var ≤ 0.0
  · rw [estimate_of_still hlen hvar]
    exact ⟨fun _ => val_zero.ge, fun _ => val_zero.le⟩
  rw [estimate_of_moving hlen hvar, ← (val_sums (F := F) e.samples).1]
  rw [val_le, val_zero, not_le] at hvar
  dsimp only
  rw [Moments.val_rate]
  constructor
  · intro hcov
    have hslope := div_nonneg hcov hvar.le
    linarith
  · intro hcov
    have hslope := div_nonpos_of_nonpos_of_nonneg hcov hvar.le
    linarith

/-- A trend falls or rises only with its rate. -/
theorem direction_of_rate (e : TrendEstimator) :
    (0 ≤ val (e.estimate : TrendEstimate F).rate →
        (e.estimate : TrendEstimate F).direction ≠ .falling) ∧
      (val (e.estimate : TrendEstimate F).rate ≤ 0 →
        (e.estimate : TrendEstimate F).direction ≠ .rising) := by
  rcases Nat.lt_or_ge e.samples.length 2 with hfew | hlen
  · rw [estimate_of_few hfew]
    exact ⟨fun _ => nofun, fun _ => nofun⟩
  by_cases hvar : (sums e.samples : Moments F).var ≤ 0.0
  · rw [estimate_of_still hlen hvar]
    exact ⟨fun _ => nofun, fun _ => nofun⟩
  rw [estimate_of_moving hlen hvar]
  constructor
  · intro hrate hfalling
    have hdown := directionOf_falling hfalling
    dsimp only at hrate
    linarith
  · intro hrate hrising
    have hup := directionOf_rising hrising
    dsimp only at hrate
    linarith

theorem SamplesInOrder.time {samples : List TrendSample} (h : SamplesInOrder samples) :
    samples.Pairwise fun a b => TrendEstimator.time a ≤ TrendEstimator.time b :=
  h.imp fun hle => Nat.cast_le.mpr (UInt64.le_iff_toNat_le.mp hle)

/-- **A trend follows the data**: over a window in time order it does not fall where
usage only rises and does not rise where it only falls, and its squared correlation
is a fraction before it is clamped. `unclampedFit` is the number that `estimate` clamps
and takes the root of: `estimate_of_moving` shows where it does, with the `fit` of the
window's moments, and `Moments.fit_eq` that this is the clamped squared correlation. -/
theorem trend_follows_data (e : TrendEstimator) (horder : SamplesInOrder e.samples) :
    ((e.samples.Pairwise fun a b => a.committed ≤ b.committed) →
        0 ≤ val (e.estimate : TrendEstimate F).rate ∧
          (e.estimate : TrendEstimate F).direction ≠ .falling) ∧
      ((e.samples.Pairwise fun a b => b.committed ≤ a.committed) →
        val (e.estimate : TrendEstimate F).rate ≤ 0 ∧
          (e.estimate : TrendEstimate F).direction ≠ .rising) ∧
      ∀ r2 ∈ (e.unclampedFit : Option F), 0 ≤ val r2 ∧ val r2 ≤ 1 := by
  have htime := SamplesInOrder.time horder
  obtain ⟨hup, hdown⟩ := rate_of_covariation (F := F) e
  obtain ⟨hnotfalling, hnotrising⟩ := direction_of_rate (F := F) e
  refine ⟨?_, ?_, ?_⟩
  · intro hrises
    have hrate := hup (LeastSquares.covariation_nonneg htime
      (hrises.imp fun hle => Nat.cast_le.mpr (UInt64.le_iff_toNat_le.mp hle)))
    exact ⟨hrate, hnotfalling hrate⟩
  · intro hfalls
    have hrate := hdown (LeastSquares.covariation_nonpos htime
      (hfalls.imp fun hle => Nat.cast_le.mpr (UInt64.le_iff_toNat_le.mp hle)))
    exact ⟨hrate, hnotrising hrate⟩
  · intro r2 hr2
    rw [unclampedFit] at hr2
    split_ifs at hr2
    · cases hr2
    · cases hr2
    · obtain rfl := Option.some.inj hr2
      exact squaredCorrelation_unit e.samples

/-- Usage that rises, at a time that repeats: the trend rises too. -/
theorem trend_follows_data_rising :
    let e : TrendEstimator := { samples := [⟨0, 100⟩, ⟨1000, 2000⟩, ⟨1000, 2000⟩, ⟨3000, 2500⟩] }
    0 ≤ val (e.estimate : TrendEstimate ℚ).rate ∧
      (e.estimate : TrendEstimate ℚ).direction ≠ .falling ∧
      (e.estimate : TrendEstimate ℚ).direction = .rising := by
  intro e
  have horder : SamplesInOrder e.samples := by
    unfold SamplesInOrder
    decide
  obtain ⟨hrate, hnotfalling⟩ := (trend_follows_data (F := ℚ) e horder).1 (by decide)
  exact ⟨hrate, hnotfalling, by decide +kernel⟩

end TrendEstimator

end MemoryPressure
