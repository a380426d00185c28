import MemoryPressure.Exact
import MemoryPressure.Score

/-!
# The score in exact arithmetic (`core.cpp:161`)

The value of a domain's score is the weighted mean of its components, cut off to
the unit interval (`val_value`). The weights a policy is accepted with are not
negative, so the laws of weighted means apply.

- `scoreDomain_mono`: the value grows with every sign of pressure, and with any
  number of them at once.
- `score_normalized_iff`: the components are fractions, and nothing is cut off,
  exactly when the failure count is not negative; it is the one component that
  is bounded on one side only.

Both are about the function itself, over all its arguments, and about exact arithmetic
(`ExactDouble`): in `double` the sums round, and a component that grows by less than an ulp
may leave the value where it is or move it against its direction. The rows of the mean
(`scoreRows`) put the components in the order of the source, so that one lemma on weighted
means, monotone in all rows at once, does for all seven arguments.
-/

namespace MemoryPressure

open ExactDouble (val val_zero val_one val_le clamp01_unit clamp01_mono)
open WeightedMean (mean unitMean weight total Below)

section

variable {F : Type} [Double F]

/-- The weights that are used, in the order of the sum (core.cpp:187). -/
def ScoreWeights.used (w : ScoreWeights F) : List F :=
  [w.utilization, w.freeDeficit, w.reserveDeficit, w.growthRate, w.allocationFailure,
    w.confidencePenalty, w.stalePenalty]

/-- The sum of the weights that are used, `den` (core.cpp:196). -/
def ScoreWeights.usedSum (w : ScoreWeights F) : F := w.used.foldl (fun acc x => acc + x) 0.0

/-- The components of a score, in the order of the sum (core.cpp:182). -/
def PressureScore.components (s : PressureScore F) : List F :=
  [s.utilizationComponent, s.freeDeficitComponent, s.reserveDeficitComponent, s.growthComponent,
    s.allocationFailureComponent, s.confidencePenalty, s.stalePenalty]

end

variable {F : Type} [Double F] [ExactDouble F]

/-- The rows of a score: each weight with its component. -/
def scoreRows (w : ScoreWeights F) (s : PressureScore F) : List (ℝ × ℝ) :=
  (w.used.map val).zip (s.components.map val)

theorem val_weightedSums (weights comps : List F) :
    val (weightedSums weights comps).1 = total ((weights.map val).zip (comps.map val)) ∧
      val (weightedSums weights comps).2 = weight ((weights.map val).zip (comps.map val)) := by
  have hsums := ExactDouble.val_foldl_sums (w := fun wc : F × F => wc.1) (v := fun wc => wc.2)
    (f := fun acc wc => (acc.1 + wc.1 * wc.2, acc.2 + wc.1)) (fun acc a => by simp)
    (weights.zip comps) (0.0, 0.0)
  have hrows : (weights.zip comps).map (fun wc => (val wc.1, val wc.2))
      = (weights.map val).zip (comps.map val) := by
    rw [List.zip_map]
    rfl
  rw [hrows, val_zero, zero_add, zero_add] at hsums
  exact hsums

theorem val_usedSum (w : ScoreWeights F) : val w.usedSum = (w.used.map val).sum := by
  have hfold : ∀ (xs : List F) (acc : F),
      val (xs.foldl (fun acc x => acc + x) acc) = val acc + (xs.map val).sum := by
    intro xs
    induction xs with
    | nil => simp
    | cons x xs ih =>
      intro acc
      rw [List.foldl_cons, ih, ExactDouble.val_add, List.map_cons, List.sum_cons, add_assoc]
  rw [ScoreWeights.usedSum, hfold, val_zero, zero_add]

section

variable {p : PressurePolicy F}

theorem nonneg_of_weightOk {v : F} (h : weightOk v = true) : 0 ≤ val v := by
  have hle : (0.0 : F) ≤ v := of_decide_eq_true (Bool.and_eq_true_iff.mp h).1
  rwa [val_le, val_zero] at hle

/-- The weights of a policy that is accepted are not negative. -/
theorem weights_nonneg (hp : validatePolicy p = none) : ∀ x ∈ p.weights.used.map val, 0 ≤ x := by
  have hok : p.weights.allOk = true := by
    by_contra hbad
    unfold validatePolicy at hp
    split_ifs at hp
    simp_all
  simp only [ScoreWeights.allOk, Bool.and_eq_true] at hok
  intro x hx
  obtain ⟨v, hv, rfl⟩ := List.mem_map.mp hx
  refine nonneg_of_weightOk ?_
  simp only [ScoreWeights.used, List.mem_cons, List.not_mem_nil, or_false] at hv
  rcases hv with rfl | rfl | rfl | rfl | rfl | rfl | rfl <;> simp [hok]

theorem scoreRows_nonneg (hp : validatePolicy p = none) (s : PressureScore F) :
    ∀ row ∈ scoreRows p.weights s, 0 ≤ row.1 :=
  fun row hrow => weights_nonneg hp row.1 (List.of_mem_zip hrow).1

end

/-! ## The components -/

section

variable (u : F) (governed : Bool) (free reserve growth : F) (failures : Int32) (c : Confidence)
  (v : Validity) (w : ScoreWeights F)

/-- **The value of a score** is the mean of its rows, cut off to the unit interval. -/
theorem val_value :
    val (scoreDomain u governed free reserve growth failures c v w).value
      = unitMean (scoreRows w (scoreDomain u governed free reserve growth failures c v w)) := by
  have hsums := val_weightedSums w.used
    (scoreDomain u governed free reserve growth failures c v w).components
  exact ExactDouble.val_unitMean hsums.1 hsums.2

omit [ExactDouble F] in
/-- The free deficit, whether the domain is governed or not. -/
theorem freeDeficitComponent_eq :
    (scoreDomain u governed free reserve growth failures c v w).freeDeficitComponent
      = Double.clamp01 (1.0 - free) := by
  cases governed <;> rfl

/-- A failure counts a fifth, up to one. -/
theorem val_allocationFailure :
    val (scoreDomain u governed free reserve growth failures c v w).allocationFailureComponent
      = min 1 ((failures.toInt : ℝ) / 5) := by
  show val (Double.min 1.0 (Double.ofInt failures.toInt / 5.0)) = _
  have hfive : val (5.0 : F) = 5 := by
    rw [ExactDouble.val_ofScientific]
    norm_num
  simp [hfive]

end

theorem confidencePenalty_unit (c : Confidence) :
    0 ≤ val (confidencePenalty c : F) ∧ val (confidencePenalty c : F) ≤ 1 := by
  cases c <;> simp only [confidencePenalty, ExactDouble.val_ofScientific] <;> norm_num

theorem validityPenalty_unit (v : Validity) :
    0 ≤ val (validityPenalty v : F) ∧ val (validityPenalty v : F) ≤ 1 := by
  cases v <;> simp only [validityPenalty, ExactDouble.val_ofScientific] <;> norm_num

/-- Weaker confidence is penalized more. -/
theorem confidencePenalty_mono {c c' : Confidence} (h : c'.strength ≤ c.strength) :
    val (confidencePenalty c : F) ≤ val (confidencePenalty c' : F) := by
  cases c <;> cases c' <;> first
    | exact absurd h (by decide)
    | (simp only [confidencePenalty, ExactDouble.val_ofScientific]; norm_num)

/-- Weaker validity is penalized more. -/
theorem validityPenalty_mono {v v' : Validity} (h : v'.strength ≤ v.strength) :
    val (validityPenalty v : F) ≤ val (validityPenalty v' : F) := by
  cases v <;> cases v' <;> first
    | exact absurd h (by decide)
    | (simp only [validityPenalty, ExactDouble.val_ofScientific]; norm_num)

/-! ## Monotone -/

/-- **The score grows with pressure.** Under the weights of a policy that is accepted, it
never falls when utilization, reserve deficit, growth and allocation failures rise, the
free fraction falls, and confidence and validity weaken, at once or not. Each component is
clamped to the unit interval and grows with its argument, and the value is a mean of the
components with weights that are not negative. -/
theorem scoreDomain_mono {p : PressurePolicy F} (hp : validatePolicy p = none)
    (governed governed' : Bool) {u u' free free' reserve reserve' growth growth' : F}
    {failures failures' : Int32} {c c' : Confidence} {v v' : Validity} (hu : u ≤ u')
    (hfree : free' ≤ free) (hreserve : reserve ≤ reserve') (hgrowth : growth ≤ growth')
    (hfailures : failures ≤ failures') (hc : c'.strength ≤ c.strength)
    (hv : v'.strength ≤ v.strength) :
    (scoreDomain u governed free reserve growth failures c v p.weights).value
      ≤ (scoreDomain u' governed' free' reserve' growth' failures' c' v' p.weights).value := by
  rw [val_le, val_value, val_value]
  refine WeightedMean.unitMean_mono ?_ (scoreRows_nonneg hp _)
  rw [val_le] at hu hfree hreserve hgrowth
  have hfreeDeficit : val (Double.clamp01 (1.0 - free)) ≤ val (Double.clamp01 (1.0 - free')) := by
    refine clamp01_mono ?_
    rw [ExactDouble.val_sub, ExactDouble.val_sub]
    exact sub_le_sub_left hfree _
  have hcount : (failures.toInt : ℝ) ≤ failures'.toInt :=
    Int.cast_le.mpr (Int32.le_iff_toInt_le.mp hfailures)
  -- one row for each component
  refine .cons ⟨rfl, clamp01_mono hu⟩ (.cons ⟨rfl, ?_⟩ (.cons ⟨rfl, clamp01_mono hreserve⟩
    (.cons ⟨rfl, clamp01_mono hgrowth⟩ (.cons ⟨rfl, ?_⟩
      (.cons ⟨rfl, confidencePenalty_mono hc⟩ (.cons ⟨rfl, validityPenalty_mono hv⟩ .nil))))))
  · rw [freeDeficitComponent_eq, freeDeficitComponent_eq]
    exact hfreeDeficit
  · rw [val_allocationFailure, val_allocationFailure]
    exact min_le_min le_rfl (div_le_div_of_nonneg_right hcount (by norm_num : (0 : ℝ) ≤ 5))

/-- Half full and calm scores no higher than 80 % full, growing, and seen through a
provider whose data are partial. -/
theorem scoreDomain_mono_default :
    (scoreDomain (0.5 : ℚ) true 0.5 0.0 0.0 0 .authoritative .valid
        (defaultPolicy : PressurePolicy ℚ).weights).value
      ≤ (scoreDomain (0.8 : ℚ) true 0.2 0.0 0.4 2 .medium .partialData
        (defaultPolicy : PressurePolicy ℚ).weights).value :=
  scoreDomain_mono (by decide +kernel) true true (by decide +kernel) (by decide +kernel)
    (by decide +kernel) (by decide +kernel) (by decide) (by decide) (by decide)

/-! ## Normalized -/

/-- The scores of the table: every component a fraction, and the value their weighted
mean, not cut off. -/
structure PressureScore.Normalized (w : ScoreWeights F) (s : PressureScore F) : Prop where
  components : ∀ x ∈ s.components, 0.0 ≤ x ∧ x ≤ 1.0
  value : val s.value = mean (scoreRows w s)

/-- Every component is a fraction, or is that of the failures. -/
theorem component_unit_or (u : F) (governed : Bool) (free reserve growth : F) (failures : Int32)
    (c : Confidence) (v : Validity) (w : ScoreWeights F) :
    ∀ x ∈ (scoreDomain u governed free reserve growth failures c v w).components,
      (0 ≤ val x ∧ val x ≤ 1) ∨ val x = min 1 ((failures.toInt : ℝ) / 5) := by
  intro x hx
  simp only [PressureScore.components, List.mem_cons, List.not_mem_nil, or_false] at hx
  rcases hx with rfl | rfl | rfl | rfl | rfl | rfl | rfl
  · exact .inl (clamp01_unit u)
  · rw [freeDeficitComponent_eq]
    exact .inl (clamp01_unit _)
  · exact .inl (clamp01_unit reserve)
  · exact .inl (clamp01_unit growth)
  · exact .inr (val_allocationFailure ..)
  · exact .inl (confidencePenalty_unit c)
  · exact .inl (validityPenalty_unit v)

/-- No component is above 1. -/
theorem components_le_one (u : F) (governed : Bool) (free reserve growth : F) (failures : Int32)
    (c : Confidence) (v : Validity) (w : ScoreWeights F) :
    ∀ x ∈ (scoreDomain u governed free reserve growth failures c v w).components, val x ≤ 1 := by
  intro x hx
  rcases component_unit_or u governed free reserve growth failures c v w x hx with hunit | hmin
  · exact hunit.2
  · rw [hmin]
    exact min_le_left _ _

/-- Without a negative failure count no component is below 0. -/
theorem components_nonneg (u : F) (governed : Bool) (free reserve growth : F) {failures : Int32}
    (hfailures : 0 ≤ (failures.toInt : ℝ)) (c : Confidence) (v : Validity) (w : ScoreWeights F) :
    ∀ x ∈ (scoreDomain u governed free reserve growth failures c v w).components, 0 ≤ val x := by
  intro x hx
  rcases component_unit_or u governed free reserve growth failures c v w x hx with hunit | hmin
  · exact hunit.1
  · rw [hmin]
    exact le_min zero_le_one (by linarith)

/-- **The components are fractions, and the value is their weighted mean, exactly when the
failure count is not negative.** The failure component is the one that is bounded above
only (core.cpp:172). A negative count, which the readers accept, makes it negative. -/
theorem score_normalized_iff {p : PressurePolicy F} (hp : validatePolicy p = none)
    (hused : 0.0 < p.weights.usedSum) (u : F) (governed : Bool) (free reserve growth : F)
    (failures : Int32) (c : Confidence) (v : Validity) :
    (scoreDomain u governed free reserve growth failures c v p.weights).Normalized p.weights ↔
      0 ≤ failures := by
  have hcount : (0 : ℝ) ≤ failures.toInt ↔ 0 ≤ failures := by
    rw [Int.cast_nonneg_iff, Int32.le_iff_toInt_le]
    rfl
  constructor
  · intro h
    have hcomp := (h.components _ (List.mem_of_getElem? (i := 4) rfl)).1
    rw [val_le, val_zero, val_allocationFailure] at hcomp
    have hfifth := hcomp.trans (min_le_right _ _)
    exact hcount.mp (by linarith)
  · intro h
    have hunit : ∀ x ∈
      (scoreDomain u governed free reserve growth failures c v p.weights).components,
        0 ≤ val x ∧ val x ≤ 1 := by
      intro x hx
      exact ⟨components_nonneg u governed free reserve growth (hcount.mpr h) c v p.weights x hx,
        components_le_one u governed free reserve growth failures c v p.weights x hx⟩
    constructor
    · intro x hx
      rw [val_le, val_le, val_zero, val_one]
      exact hunit x hx
    · have hweight : 0 < weight (scoreRows p.weights
          (scoreDomain u governed free reserve growth failures c v p.weights)) := by
        rw [scoreRows, WeightedMean.weight_zip (by rfl), ← val_usedSum, ← val_zero (F := F),
          ← ExactDouble.val_lt]
        exact hused
      rw [val_value]
      refine WeightedMean.unitMean_eq_mean (scoreRows_nonneg hp _) hweight ?_
      intro row hrow
      obtain ⟨x, hx, hval⟩ := List.mem_map.mp (List.of_mem_zip hrow).2
      rw [← hval]
      exact hunit x hx

/-- A full domain with two failures is scored by the default weights. -/
theorem score_normalized_default :
    (scoreDomain (1.0 : ℚ) true 0.0 0.0 0.0 2 .high .valid
      (defaultPolicy : PressurePolicy ℚ).weights).Normalized
        (defaultPolicy : PressurePolicy ℚ).weights := by
  exact (score_normalized_iff (by decide +kernel) (by decide +kernel) 1.0 true 0.0 0.0 0.0 2 .high
    .valid).mpr (by decide)

/-- A failure count of -5, which the readers accept, gives a component of -1. -/
theorem component_negative :
    ¬ (scoreDomain (1.0 : ℚ) true 0.0 0.0 0.0 (-5) .high .valid
      (defaultPolicy : PressurePolicy ℚ).weights).Normalized
        (defaultPolicy : PressurePolicy ℚ).weights := by
  intro h
  have hcomp := (h.components _ (List.mem_of_getElem? (i := 4) rfl)).1
  exact absurd hcomp (by decide +kernel)

end MemoryPressure
