import MemoryPressure.Run
import MemoryPressure.ScoreLaws
import MemoryPressure.TrendLaws

/-!
# What a falling trend does to a score (`runtime.cpp:264`)

The growth component of a score is the confidence of the trend where usage rises,
but where it falls it is a fifth of the confidence, and not zero. So of two runs
that end in the same observation of a domain, the one that comes down to it scores
higher than the one that stayed there.

- `confidence_pos_of_falling`: a trend that falls is seen with some confidence.
- `val_scoreBy_growth`: how a score depends on its growth component.
- `falling_scores_no_more_iff`: the first run scores no more than the second exactly
  when growth has no weight, or a negative failure count outweighs the rest.

**Proof structure.** Two arguments meet. One is about the estimate: where a window falls,
its committed bytes vary along with time, so that the squared correlation and with it the
confidence are positive (`fit_pos`). It rests on `Moments.Regular`, which the sums of every
window satisfy. The other is about the score: growth adds its own weighted part to the
sum and leaves the weights alone (`total_scoreRows`, `weight_scoreRows`), so that the score
is a rational function of growth whose sign of change is a matter of `weightOfRest`
(`fifth_scores_no_more_iff`).

The two runs need not have anything in common but what the score reads: the policy in
force, the budget of the domain, and the observation they end in (`EndsObserving`). An
observation may say that allocations failed a negative number of times, since the field is a
signed integer that nothing bounds below; that is where the second condition comes from.

Arithmetic is exact. In `double` the two scores may also be equal through rounding.
-/

namespace MemoryPressure

open ExactDouble (val val_zero val_one val_le val_lt)
open WeightedMean (unitMean weight total)

variable {F : Type} [Double F] [ExactDouble F]

/-! ## The confidence of a trend -/

namespace TrendEstimator

/-- Sums of squares are not negative, and where the committed bytes do not vary they
do not vary along with time. -/
def Moments.Regular (m : Moments F) : Prop :=
  0 ≤ val m.varc ∧ (val m.varc ≤ 0 → val m.cov = 0)

theorem sums_regular (samples : List TrendSample) : (sums samples : Moments F).Regular := by
  obtain ⟨hcov, hvar, hvarc⟩ := val_sums (F := F) samples
  have hsq := LeastSquares.covariation_sq_le samples time bytes
  have hself := LeastSquares.covariation_self_nonneg samples bytes
  rw [← hcov, ← hvar, ← hvarc] at hsq
  rw [← hvarc] at hself
  refine ⟨hself, ?_⟩
  intro hle
  rw [le_antisymm hle hself, mul_zero] at hsq
  exact mul_self_eq_zero.mp (le_antisymm hsq (mul_self_nonneg _))

/-- The confidence of any trend is a fraction. -/
theorem confidence_unit (e : TrendEstimator) :
    0 ≤ val (e.estimate : TrendEstimate F).confidence ∧
      val (e.estimate : TrendEstimate F).confidence ≤ 1 := by
  rcases Nat.lt_or_ge e.samples.length 2 with hfew | hlen
  · rw [estimate_of_few hfew]
    exact ⟨val_zero.ge, val_zero.trans_le zero_le_one⟩
  by_cases hvar : (sums e.samples : Moments F).var ≤ 0.0
  · rw [estimate_of_still hlen hvar]
    exact ⟨val_zero.ge, val_zero.trans_le zero_le_one⟩
  · rw [estimate_of_moving hlen hvar]
    exact ExactDouble.clamp01_unit _

/-- Samples that vary along with time fit to some degree. -/
theorem fit_pos {samples : List TrendSample} (hvar : 0 < val (sums samples : Moments F).var)
    (hcov : val (sums samples : Moments F).cov ≠ 0) : 0 < val (sums samples : Moments F).fit := by
  have hvarc : 0 < val (sums samples : Moments F).varc := by
    by_contra hnot
    exact hcov ((sums_regular samples).2 (not_lt.mp hnot))
  have hgt : (sums samples : Moments F).varc > 0.0 := by rwa [gt_iff_lt, val_lt, val_zero]
  rw [fit_sums, Moments.squaredCorrelation, if_pos hgt, ExactDouble.val_div, ExactDouble.val_mul,
    ExactDouble.val_mul]
  exact div_pos (mul_self_pos.mpr hcov) (mul_pos hvar hvarc)

/-- What is known where a trend falls. -/
theorem estimate_of_falling {e : TrendEstimator}
    (h : (e.estimate : TrendEstimate F).direction = .falling) :
    0 < val (sums e.samples : Moments F).fit ∧ 0 < e.samples.length ∧
      (e.estimate : TrendEstimate F).confidence =
        Double.clamp01 (Double.sqrt (sums e.samples : Moments F).fit *
          Double.min 1.0
              (Double.ofNat e.samples.length / Double.ofNat (max e.windowSamples 1))) := by
  rcases Nat.lt_or_ge e.samples.length 2 with hfew | hlen
  · rw [estimate_of_few hfew] at h
    cases h
  by_cases hvar : (sums e.samples : Moments F).var ≤ 0.0
  · rw [estimate_of_still hlen hvar] at h
    cases h
  rw [estimate_of_moving hlen hvar] at h ⊢
  rw [val_le, val_zero, not_le] at hvar
  have hslope : val (sums e.samples : Moments F).cov
      / val (sums e.samples : Moments F).var < 0 := by
    have hrate := directionOf_falling h
    rw [Moments.val_rate] at hrate
    linarith
  refine ⟨fit_pos hvar fun hzero => ?_, by omega, rfl⟩
  rw [hzero, zero_div] at hslope
  exact lt_irrefl _ hslope

/-- **A trend that falls is seen with some confidence.** -/
theorem confidence_pos_of_falling {e : TrendEstimator}
    (h : (e.estimate : TrendEstimate F).direction = .falling) :
    0 < val (e.estimate : TrendEstimate F).confidence := by
  obtain ⟨hfit, hlen, hconf⟩ := estimate_of_falling h
  have hroot : 0 < val (Double.sqrt (sums e.samples : Moments F).fit) :=
    ExactDouble.sqrt_pos _ hfit
  have hspan : 0 < val (Double.min 1.0
      (Double.ofNat e.samples.length / Double.ofNat (max e.windowSamples 1)) : F) := by
    rw [ExactDouble.val_min, ExactDouble.val_div, val_one, ExactDouble.val_ofNat,
      ExactDouble.val_ofNat]
    refine lt_min one_pos (div_pos (Nat.cast_pos.mpr hlen) (Nat.cast_pos.mpr ?_))
    exact lt_of_lt_of_le Nat.zero_lt_one (le_max_right _ _)
  rw [hconf, ExactDouble.val_clamp01, ExactDouble.val_mul]
  exact lt_max_of_lt_right (lt_min one_pos (mul_pos hroot hspan))

end TrendEstimator

/-! ## A score by its growth component -/

section

variable {F : Type} [Double F]

/-- `free_fraction` (runtime.cpp:260). -/
def freeFractionFor (budget : Option Budget) (obs : DomainObservation F) : F :=
  let usable := usableFor budget obs
  let available := if usable > obs.committed then usable - obs.committed else 0
  if usable > 0 then Double.ofUInt64 available / Double.ofUInt64 usable else 0.0

/-- `reserve_deficit` (runtime.cpp:261). -/
def reserveDeficitFor (budget : Option Budget) (obs : DomainObservation F) : F :=
  let usable := usableFor budget obs
  if usable > 0 ∧ obs.committed > usable then
    Double.clamp01 (Double.ofUInt64 (obs.committed - usable) / Double.ofUInt64 (max usable 1))
  else 0.0

/-- The score of an observation, given its growth factor (runtime.cpp:268). -/
def scoreBy (pol : PressurePolicy F) (budget : Option Budget) (obs : DomainObservation F)
    (growth : F) : PressureScore F :=
  scoreDomain (utilizationFor obs.committed (usableFor budget obs)) (isGoverned budget)
    (freeFractionFor budget obs) (reserveDeficitFor budget obs) growth obs.allocationFailures
    obs.confidence obs.validity pol.weights

theorem score_interpretStep (pol : PressurePolicy F) (budgets : Budgets) (nowMs : UInt64)
    (st : DomainRuntimeState F) (sight : Sighting F) :
    (interpretStep pol budgets nowMs st sight).2.score
      = (scoreBy pol (budgets.lookup sight.2.id) sight.2
          (growthFactor (st.trend.addSample sight.2.committed nowMs).estimate)).value := rfl

end

/-- What the other components of an observation's score weigh. A failure counts a
fifth, and so does a negative one. -/
noncomputable def weightOfRest (pol : PressurePolicy F) (budget : Option Budget)
    (obs : DomainObservation F) : ℝ :=
  val pol.weights.utilization
      * val (Double.clamp01 (utilizationFor obs.committed (usableFor budget obs) : F))
    + val pol.weights.freeDeficit * val (Double.clamp01 (1.0 - freeFractionFor budget obs))
    + val pol.weights.reserveDeficit * val (Double.clamp01 (reserveDeficitFor budget obs))
    + val pol.weights.allocationFailure * min 1 ((obs.allocationFailures.toInt : ℝ) / 5)
    + val pol.weights.confidencePenalty * val (confidencePenalty obs.confidence : F)
    + val pol.weights.stalePenalty * val (validityPenalty obs.validity : F)

section

variable (pol : PressurePolicy F) (budget : Option Budget) (obs : DomainObservation F)

/-- **The growth component adds its weighted part** to the sum. -/
theorem total_scoreRows (growth : F) :
    total (scoreRows pol.weights (scoreBy pol budget obs growth))
      = weightOfRest pol budget obs
        + val pol.weights.growthRate * val (Double.clamp01 growth) := by
  have hrows : scoreRows pol.weights (scoreBy pol budget obs growth)
      = [(val pol.weights.utilization,
          val (Double.clamp01 (utilizationFor obs.committed (usableFor budget obs) : F))),
        (val pol.weights.freeDeficit, val (scoreBy pol budget obs growth).freeDeficitComponent),
        (val pol.weights.reserveDeficit, val (Double.clamp01 (reserveDeficitFor budget obs))),
        (val pol.weights.growthRate, val (Double.clamp01 growth)),
        (val pol.weights.allocationFailure,
          val (scoreBy pol budget obs growth).allocationFailureComponent),
        (val pol.weights.confidencePenalty, val (confidencePenalty obs.confidence : F)),
        (val pol.weights.stalePenalty, val (validityPenalty obs.validity : F))] := rfl
  rw [hrows, scoreBy, freeDeficitComponent_eq, val_allocationFailure, weightOfRest]
  simp only [WeightedMean.total_cons, WeightedMean.total_nil]
  ring

/-- The components of a score weigh the same together, whatever the growth. -/
theorem weight_scoreRows (growth : F) :
    weight (scoreRows pol.weights (scoreBy pol budget obs growth))
      = (pol.weights.used.map val).sum :=
  WeightedMean.weight_zip rfl

/-- With a full growth component the parts weigh no more than the weights. -/
theorem weightOfRest_le (hp : validatePolicy pol = none) :
    weightOfRest pol budget obs + val pol.weights.growthRate ≤ (pol.weights.used.map val).sum := by
  have hone : ∀ row ∈ scoreRows pol.weights (scoreBy pol budget obs 1.0), row.2 ≤ 1 := by
    intro row hrow
    obtain ⟨x, hx, hval⟩ := List.mem_map.mp (List.of_mem_zip hrow).2
    rw [← hval]
    exact components_le_one _ _ _ _ _ _ _ _ _ x hx
  have hle := WeightedMean.total_le_mul_weight (scoreRows_nonneg hp _) hone
  rw [total_scoreRows, weight_scoreRows] at hle
  simpa using hle

variable {pol budget obs}

/-- **A fifth of a confidence as growth scores no more than no growth** exactly when
growth has no weight, or everything together weighs no more than nothing. -/
theorem fifth_scores_no_more_iff (hp : validatePolicy pol = none) {c : F} (hpos : 0 < val c)
    (hle : val c ≤ 1) :
    (scoreBy pol budget obs (0.2 * c)).value ≤ (scoreBy pol budget obs 0.0).value ↔
      val pol.weights.growthRate = 0 ∨
        weightOfRest pol budget obs + val pol.weights.growthRate * (val c / 5) ≤ 0 := by
  have hgrowth : val (Double.clamp01 (0.2 * c)) = val c / 5 := by
    have hfifth : val (0.2 : F) = 1 / 5 := by
      rw [ExactDouble.val_ofScientific]
      norm_num
    rw [ExactDouble.val_clamp01, ExactDouble.val_mul, hfifth, min_eq_right (by linarith),
      max_eq_right (by linarith)]
    ring
  have hnone : val (Double.clamp01 (0.0 : F)) = 0 := by simp
  have hmem : val pol.weights.growthRate ∈ pol.weights.used.map val :=
    List.mem_map_of_mem (List.mem_of_getElem? (i := 3) rfl)
  have hnonneg := weights_nonneg hp _ hmem
  have hrest := weightOfRest_le pol budget obs hp
  have htotal := total_scoreRows pol budget obs (0.2 * c)
  have htotal' := total_scoreRows pol budget obs 0.0
  rw [hgrowth] at htotal
  rw [hnone, mul_zero, add_zero] at htotal'
  rw [val_le]
  show val (scoreDomain _ _ _ _ _ _ _ _ _).value ≤ val (scoreDomain _ _ _ _ _ _ _ _ _).value ↔ _
  rw [val_value, val_value]
  by_cases hweight : 0 < (pol.weights.used.map val).sum
  · have hgain : 0 ≤ val pol.weights.growthRate * (val c / 5) :=
      mul_nonneg hnonneg (by linarith)
    have hsame : weight (scoreRows pol.weights (scoreBy pol budget obs (0.2 * c)))
        = weight (scoreRows pol.weights (scoreBy pol budget obs 0.0)) := by
      rw [weight_scoreRows, weight_scoreRows]
    have hiff := WeightedMean.unitMean_le_iff hsame (by rwa [weight_scoreRows])
      (by rw [htotal, htotal']; linarith)
    rw [htotal, htotal', weight_scoreRows] at hiff
    refine hiff.trans ?_
    constructor
    · rintro (heq | hle | hfull)
      · left
        have hzero : val pol.weights.growthRate * (val c / 5) = 0 := by linarith
        exact (mul_eq_zero.mp hzero).resolve_right (by linarith)
      · exact Or.inr hle
      · exact Or.inl (le_antisymm (by linarith) hnonneg)
    · rintro (hzero | hle)
      · exact Or.inl (by rw [hzero, zero_mul, add_zero])
      · exact Or.inr (Or.inl hle)
  · -- no weight is used, so growth has none either
    have hzero : val pol.weights.growthRate = 0 :=
      le_antisymm
        ((List.single_le_sum (weights_nonneg hp) _ hmem).trans (not_lt.mp hweight)) hnonneg
    have hnomean : ∀ growth : F,
        unitMean (scoreRows pol.weights (scoreBy pol budget obs growth)) = 0 := by
      intro growth
      rw [unitMean, weight_scoreRows, if_neg hweight]
    refine iff_of_true ?_ (Or.inl hzero)
    exact ((hnomean _).trans (hnomean _).symm).le

end

/-! ## Two runs -/

open PressureRuntime (published interpreted swept)

section

variable {F : Type} [Double F]

/-- The published entry in the place of an observation is what is made of it. -/
theorem published_at {pol : PressurePolicy F} {budgets : Budgets}
    {rt : PressureRuntime F} {nowMs : UInt64} {log : PollLog F} {n : Nat} {sight : Sighting F}
    (h : log.sightings[n]? = some sight) :
    ∃ blocked st, (published pol budgets rt nowMs log).snapshot.domains[n]?
      = some (respond blocked (interpretStep pol budgets nowMs st sight).2) := by
  obtain ⟨st, hst⟩ : ∃ st, (interpreted pol budgets rt nowMs log).2[n]?
      = some (interpretStep pol budgets nowMs st sight).2 :=
    Keyed.feed_output_at _ _ _ h rt.domainStates
  refine ⟨hostBlocked (swept pol budgets rt nowMs log).domains, st, ?_⟩
  show (crossTier (swept pol budgets rt nowMs log).domains)[n]? = _
  have hlt : n < (interpreted pol budgets rt nowMs log).2.length :=
    (List.getElem?_eq_some_iff.mp hst).1
  rw [crossTier, List.getElem?_map, PressureRuntime.swept_domains, List.getElem?_append_left hlt,
    hst, Option.map_some]

/-- One refresh of a run that ends in it: the observation in some place of its polls,
and the entry published for it. -/
structure EndsObserving (ops : List (Op F)) (nowMs : UInt64) (polls : List (Poll F)) (n : Nat)
    (obs : DomainObservation F) (d : DomainState F) : Prop where
  observed : ∃ name, (sightingsOf polls)[n]? = some (name, obs)
  published : ∃ pub ∈ (step (runFrom PressureRuntime.init ops) (.refresh nowMs polls)).2,
    pub.snapshot.domains[n]? = some d

variable {ops : List (Op F)} {nowMs : UInt64} {polls : List (Poll F)} {n : Nat}
  {obs : DomainObservation F} {d : DomainState F}

/-- The published score and trend, of the trend estimate as it was then. -/
theorem EndsObserving.scored (h : EndsObserving ops nowMs polls n obs d) :
    ∃ e : TrendEstimator, d.trend = (e.estimate : TrendEstimate F).direction ∧
      d.trendConfidence = (e.estimate : TrendEstimate F).confidence ∧
      d.score = (scoreBy (runFrom PressureRuntime.init ops).policy
        ((runFrom (PressureRuntime.init : PressureRuntime F) ops).budgets.lookup obs.id) obs
        (growthFactor e.estimate)).value := by
  obtain ⟨⟨name, hobs⟩, pub, hpub, hd⟩ := h
  obtain ⟨_, _, log, hop, hlog, rfl⟩ := step_publishes hpub
  cases hop
  rw [← hlog.sightings] at hobs
  obtain ⟨blocked, st, hentry⟩ := published_at hobs
  obtain rfl := Option.some.inj (hd.symm.trans hentry)
  exact ⟨st.trend.addSample obs.committed nowMs, rfl, rfl,
    score_interpretStep _ _ nowMs st (name, obs)⟩

end

/-- **A falling trend scores no more than a flat one exactly when** growth has no weight,
or a negative failure count outweighs everything else there is to the score. `weightOfRest`
is what all components but growth contribute; it is negative only through the failure count
of the observation. -/
theorem falling_scores_no_more_iff {ops₁ ops₂ : List (Op F)} {nowMs : UInt64}
    {polls₁ polls₂ : List (Poll F)} {n₁ n₂ : Nat} {obs : DomainObservation F}
    {d₁ d₂ : DomainState F} (h₁ : EndsObserving ops₁ nowMs polls₁ n₁ obs d₁)
    (h₂ : EndsObserving ops₂ nowMs polls₂ n₂ obs d₂) {pol : PressurePolicy F}
    (hp : validatePolicy pol = none) (hpol₁ : (runFrom PressureRuntime.init ops₁).policy = pol)
    (hpol₂ : (runFrom PressureRuntime.init ops₂).policy = pol) {budget : Option Budget}
    (hbudget₁ :
        (runFrom (PressureRuntime.init : PressureRuntime F) ops₁).budgets.lookup obs.id = budget)
    (hbudget₂ :
        (runFrom (PressureRuntime.init : PressureRuntime F) ops₂).budgets.lookup obs.id = budget)
    (hfalling : d₁.trend = .falling) (hflat : d₂.trend = .flat) :
    d₁.score ≤ d₂.score ↔
      val pol.weights.growthRate = 0 ∨
        weightOfRest pol budget obs + val pol.weights.growthRate *
            (val d₁.trendConfidence / 5) ≤ 0 := by
  obtain ⟨e₁, htrend₁, hconf₁, hscore₁⟩ := h₁.scored
  obtain ⟨e₂, htrend₂, -, hscore₂⟩ := h₂.scored
  rw [hpol₁, hbudget₁] at hscore₁
  rw [hpol₂, hbudget₂] at hscore₂
  have hgrowth₁ : growthFactor (e₁.estimate : TrendEstimate F) = 0.2 * d₁.trendConfidence := by
    rw [growthFactor, ← htrend₁, hfalling, hconf₁]
  have hgrowth₂ : growthFactor (e₂.estimate : TrendEstimate F) = 0.0 := by
    rw [growthFactor, ← htrend₂, hflat]
  rw [hscore₁, hscore₂, hgrowth₁, hgrowth₂]
  refine fifth_scores_no_more_iff hp ?_ ?_
  · rw [hconf₁]
    exact TrendEstimator.confidence_pos_of_falling (htrend₁.symm.trans hfalling)
  · rw [hconf₁]
    exact (TrendEstimator.confidence_unit e₁).2

/-- One observation of a host of 1000 bytes with `committed` of them in use. -/
def coolingAt (committed : UInt64) : DomainObservation ℚ :=
  { id := { high := 0, low := 1 }, totalCapacity := 1000, committed := committed }

/-- One provider's sample with that observation. -/
def coolingPolls (committed : UInt64) : List (Poll ℚ) :=
  [{ name := "host", outcome := .returned { observations := [coolingAt committed] } }]

/-- A run of one refresh that saw `committed`, up to the second refresh of the host. -/
def coolingRun (pol : PressurePolicy ℚ) (committed : UInt64) : List (Op ℚ) :=
  [.setPolicy pol, .registerProvider "host", .refresh 0 (coolingPolls committed)]

/-- `coolingRun` ends observing the host, and this is what is published of its second
refresh. -/
theorem endsObserving_coolingRun (pol : PressurePolicy ℚ) (committed : UInt64)
    (P : DomainState ℚ → Bool)
    (h : ((step (runFrom PressureRuntime.init (coolingRun pol committed))
      (.refresh 1000 (coolingPolls 100))).2.any fun pub => pub.snapshot.domains[0]?.any P) = true) :
    ∃ d, EndsObserving (coolingRun pol committed) 1000 (coolingPolls 100) 0 (coolingAt 100) d ∧
      P d = true := by
  obtain ⟨pub, hpub, hany⟩ := List.any_eq_true.mp h
  obtain ⟨d, hd, hP⟩ := (Option.any_eq_true _ _).mp hany
  exact ⟨d, ⟨⟨"host", rfl⟩, pub, hpub, hd⟩, hP⟩

/-- The policy a run of the host is under. -/
theorem policy_coolingRun {pol : PressurePolicy ℚ} (hp : validatePolicy pol = none)
    (committed : UInt64) :
    (runFrom PressureRuntime.init (coolingRun pol committed)).policy = pol := by
  show (PressureRuntime.init.setPolicy pol).policy = pol
  rw [PressureRuntime.setPolicy, if_neg (by rw [hp]; exact Bool.false_ne_true)]

/-- A policy in which growth has no weight. -/
def growthlessPolicy : PressurePolicy ℚ := { defaultPolicy with weights := { growthRate := 0.0 } }

/-- Under `growthlessPolicy` a host that comes down to 100 bytes scores no more than one that
stays. -/
theorem falling_scores_no_more_growthless :
    ∃ d₁ d₂, EndsObserving (coolingRun growthlessPolicy 200) 1000 (coolingPolls 100) 0
        (coolingAt 100) d₁ ∧
      EndsObserving (coolingRun growthlessPolicy 100) 1000 (coolingPolls 100) 0 (coolingAt 100) d₂ ∧
      d₁.trend = .falling ∧ d₂.trend = .flat ∧ d₁.score ≤ d₂.score := by
  obtain ⟨d₁, h₁, hfalling⟩ := endsObserving_coolingRun growthlessPolicy 200
    (fun d => d.trend = .falling) (by decide +kernel)
  obtain ⟨d₂, h₂, hflat⟩ := endsObserving_coolingRun growthlessPolicy 100
    (fun d => d.trend = .flat) (by decide +kernel)
  have hp : validatePolicy growthlessPolicy = none := by decide +kernel
  have hfalling := of_decide_eq_true hfalling
  have hflat := of_decide_eq_true hflat
  refine ⟨d₁, d₂, h₁, h₂, hfalling, hflat, ?_⟩
  exact (falling_scores_no_more_iff h₁ h₂ hp (policy_coolingRun hp 200)
    (policy_coolingRun hp 100) rfl rfl hfalling hflat).mpr (Or.inl val_zero)

/-- Under the default policy the host that comes down to 100 bytes scores more than the one
that stays: 19 / 180 against 14 / 135. -/
theorem falling_scores_more :
    validatePolicy (defaultPolicy : PressurePolicy ℚ) = none ∧
      ∃ d₁ d₂, EndsObserving (coolingRun defaultPolicy 200) 1000 (coolingPolls 100) 0
          (coolingAt 100) d₁ ∧
        EndsObserving (coolingRun defaultPolicy 100) 1000 (coolingPolls 100) 0 (coolingAt 100) d₂ ∧
        d₁.trend = .falling ∧ d₂.trend = .flat ∧ ¬ d₁.score ≤ d₂.score := by
  obtain ⟨d₁, h₁, hd₁⟩ := endsObserving_coolingRun defaultPolicy 200
    (fun d => d.trend = .falling ∧ d.score = 19 / 180) (by decide +kernel)
  obtain ⟨d₂, h₂, hd₂⟩ := endsObserving_coolingRun defaultPolicy 100
    (fun d => d.trend = .flat ∧ d.score = 14 / 135) (by decide +kernel)
  obtain ⟨hfalling, hscore₁⟩ := of_decide_eq_true hd₁
  obtain ⟨hflat, hscore₂⟩ := of_decide_eq_true hd₂
  refine ⟨by decide +kernel, d₁, d₂, h₁, h₂, hfalling, hflat, ?_⟩
  rw [hscore₁, hscore₂]
  decide +kernel

end MemoryPressure
