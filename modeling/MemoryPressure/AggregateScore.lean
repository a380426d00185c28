import MemoryPressure.Run
import MemoryPressure.ScoreLaws

/-!
# The aggregate score (`runtime.cpp:368`)

A snapshot's `aggregate_score` is the mean of its domains' scores, weighted by the
role of each in the map `role_weight`, and cut off to the unit interval
(`val_aggregateScoreOf`). `validate_policy` checks nine weights, but not those of
the map.

- `scoreUnit_run`: the scores themselves are fractions, after any run.
- `aggregate_between_iff`: the weights that keep the aggregate between the scores
  are those that are not negative and not all zero.

The second says when the aggregate is a mean at all. It is asked of the role weights of the
domains in the snapshot (`RoleWeightsUsable`), under the policy the refresh loaded. That
they are enough holds in every run; that they are needed is shown with the scores left open,
since for particular scores bad weights may do no harm (`forall_between_iff`). Roles without
a weight count 1, so the default policy takes the plain average.
-/

namespace MemoryPressure

open ExactDouble (val val_zero val_one val_le val_lt)
open WeightedMean (unitMean Usable)

section

variable {F : Type} [Double F]

/-- `rw` (runtime.cpp:373): the weight of a domain's role; 1 unless the policy gives
one. -/
def roleWeight (pol : PressurePolicy F) (d : DomainState F) : F :=
  (pol.aggregate.roleWeight.lookup (roleFor d.type)).getD 1.0

/-- A number lies between the lowest and the highest score of some domains. -/
def BetweenScores (domains : List (DomainState F)) (x : F) : Prop :=
  (∃ d ∈ domains, d.score ≤ x) ∧ ∃ d ∈ domains, x ≤ d.score

/-- The roles of some domains are given weights that are not negative and not all
zero. -/
structure RoleWeightsUsable (pol : PressurePolicy F) (domains : List (DomainState F)) : Prop where
  nonneg : ∀ d ∈ domains, 0.0 ≤ roleWeight pol d
  positive : ∃ d ∈ domains, 0.0 < roleWeight pol d

instance (pol : PressurePolicy F) (domains : List (DomainState F)) :
    Decidable (RoleWeightsUsable pol domains) :=
  decidable_of_iff ((∀ d ∈ domains, (0.0 : F) ≤ roleWeight pol d) ∧
      ∃ d ∈ domains, (0.0 : F) < roleWeight pol d)
    ⟨fun h => ⟨h.1, h.2⟩, fun h => ⟨h.1, h.2⟩⟩

instance (domains : List (DomainState F)) (x : F) : Decidable (BetweenScores domains x) :=
  inferInstanceAs (Decidable ((∃ d ∈ domains, d.score ≤ x) ∧ ∃ d ∈ domains, x ≤ d.score))

/-- A domain with another score. -/
def DomainState.rescored (d : DomainState F) (score : F) : DomainState F :=
    { d with score := score }

/-- A domain's score is a fraction. -/
def DomainState.ScoreUnit (d : DomainState F) : Prop := 0.0 ≤ d.score ∧ d.score ≤ 1.0

end

variable {F : Type} [Double F] [ExactDouble F]

/-! ## Scores are fractions -/

theorem scoreUnit_iff {d : DomainState F} :
    d.ScoreUnit ↔ 0 ≤ val d.score ∧ val d.score ≤ 1 := by
  rw [DomainState.ScoreUnit, val_le, val_le, val_zero, val_one]

/-- An observation is scored by a fraction. -/
theorem scoreUnit_interpretStep (pol : PressurePolicy F) (budgets : Budgets) (nowMs : UInt64)
    (st : DomainRuntimeState F) (sight : Sighting F) :
    (interpretStep pol budgets nowMs st sight).2.ScoreUnit := by
  rw [scoreUnit_iff]
  show 0 ≤ val (scoreDomain _ _ _ _ _ _ _ _ _).value ∧ val (scoreDomain _ _ _ _ _ _ _ _ _).value ≤ 1
  rw [val_value]
  exact ⟨WeightedMean.unitMean_nonneg _, WeightedMean.unitMean_le_one _⟩

/-- **Scores are fractions**, after a step if they were before. -/
theorem scoreUnit_step {rt : PressureRuntime F}
    (h : ∀ ds ∈ rt.currentSnapshot.domains, ds.ScoreUnit) (op : Op F) :
    ∀ ds ∈ (step rt op).1.currentSnapshot.domains, ds.ScoreUnit :=
  entries_step (fun nowMs st sight => scoreUnit_interpretStep rt.policy rt.budgets nowMs st sight)
    (fun _ _ hds => hds) (fun _ _ hds => hds) h op

/-- **Scores are fractions** after any run. -/
theorem scoreUnit_run (ops : List (Op F)) :
    ∀ ds ∈ (runFrom (PressureRuntime.init : PressureRuntime F) ops).currentSnapshot.domains,
      ds.ScoreUnit :=
  Machine.run_invariant step
    (I := fun rt : PressureRuntime F => ∀ ds ∈ rt.currentSnapshot.domains, ds.ScoreUnit)
    (fun _ op _ h => scoreUnit_step h op) (List.forall_mem_nil _)

/-! ## The weighted mean -/

section

variable (pol : PressurePolicy F) (domains : List (DomainState F))

/-- **The aggregate** is the mean of the scores by role, cut off to the unit interval. -/
theorem val_aggregateScoreOf :
    val (aggregateScoreOf pol domains)
      = unitMean (domains.map fun d => (val (roleWeight pol d), val d.score)) := by
  have hsums := ExactDouble.val_foldl_sums (w := roleWeight pol) (v := DomainState.score)
    (f := fun acc d => (acc.1 + d.score * roleWeight pol d, acc.2 + roleWeight pol d))
    (fun acc d => by simp [mul_comm]) domains (0.0, 0.0)
  rw [val_zero, zero_add, zero_add] at hsums
  exact ExactDouble.val_unitMean hsums.1 hsums.2

theorem usable_iff : RoleWeightsUsable pol domains ↔
    Usable (domains.map fun d => val (roleWeight pol d)) := by
  constructor
  · rintro ⟨hnonneg, d, hd, hpos⟩
    refine ⟨?_, val (roleWeight pol d), List.mem_map_of_mem hd, ?_⟩
    · intro w hw
      obtain ⟨d', hd', rfl⟩ := List.mem_map.mp hw
      have hle := hnonneg d' hd'
      rwa [val_le, val_zero] at hle
    · rwa [val_lt, val_zero] at hpos
  · rintro ⟨hnonneg, w, hw, hpos⟩
    obtain ⟨d, hd, rfl⟩ := List.mem_map.mp hw
    refine ⟨?_, d, hd, ?_⟩
    · intro d' hd'
      rw [val_le, val_zero]
      exact hnonneg _ (List.mem_map_of_mem hd')
    · rwa [val_lt, val_zero]

theorem betweenScores_iff (x : F) : BetweenScores domains x ↔
    WeightedMean.Between (domains.map fun d => val d.score) (val x) := by
  simp only [BetweenScores, WeightedMean.Between, val_le, List.mem_map, exists_exists_and_eq_and]

/-- Usable role weights keep the aggregate between the scores. -/
theorem RoleWeightsUsable.between (h : RoleWeightsUsable pol domains)
    (hunit : ∀ d ∈ domains, d.ScoreUnit) :
    BetweenScores domains (aggregateScoreOf pol domains) := by
  rw [betweenScores_iff, val_aggregateScoreOf]
  have hscores : ∀ v ∈ domains.map fun d => val d.score, 0 ≤ v ∧ v ≤ 1 := by
    intro v hv
    obtain ⟨d, hd, rfl⟩ := List.mem_map.mp hv
    exact scoreUnit_iff.mp (hunit d hd)
  have hbetween := ((usable_iff pol domains).mp h).between
    (by rw [List.length_map, List.length_map]) hscores
  rwa [List.zip_map'] at hbetween

/-- Domains of the same types have the same role weights. -/
theorem usable_congr {others : List (DomainState F)}
    (htypes : others.map DomainState.type = domains.map DomainState.type) :
    RoleWeightsUsable pol others ↔ RoleWeightsUsable pol domains := by
  have hweights : ∀ ds : List (DomainState F), (ds.map fun d => val (roleWeight pol d))
      = (ds.map DomainState.type).map fun t =>
        val ((pol.aggregate.roleWeight.lookup (roleFor t)).getD 1.0) := by
    intro ds
    rw [List.map_map]
    rfl
  rw [usable_iff, usable_iff, hweights, hweights, htypes]

/-- **Usable role weights alone keep the aggregate between the scores**, whatever the
domains of these types score. -/
theorem forall_between_iff :
    (∀ others : List (DomainState F), others.map DomainState.type = domains.map DomainState.type →
        (∀ d ∈ others, d.ScoreUnit) → BetweenScores others (aggregateScoreOf pol others)) ↔
      RoleWeightsUsable pol domains := by
  constructor
  · intro h
    -- the domains with a score for each, by its role weight
    have hof : ∀ (score : F → F) (f : ℝ → ℝ),
        (∀ w, val (score w) = f (val w) ∧ 0 ≤ val (score w) ∧ val (score w) ≤ 1) →
        WeightedMean.Between ((domains.map fun d => val (roleWeight pol d)).map f)
          (unitMean ((domains.map fun d => val (roleWeight pol d)).map fun w => (w, f w))) := by
      intro score f hscore
      have hbetween := h (domains.map fun d => d.rescored (score (roleWeight pol d)))
        (by rw [List.map_map]; rfl) (by
          intro d' hd'
          obtain ⟨d, -, rfl⟩ := List.mem_map.mp hd'
          exact scoreUnit_iff.mpr (hscore (roleWeight pol d)).2)
      rw [betweenScores_iff, val_aggregateScoreOf, List.map_map, List.map_map] at hbetween
      rw [List.map_map, List.map_map]
      have hrow : ∀ d : DomainState F, f (val (roleWeight pol d))
          = val (d.rescored (score (roleWeight pol d))).score := fun d => (hscore _).1.symm
      simp only [Function.comp_def, hrow]
      exact hbetween
    refine (usable_iff pol domains).mpr
      (WeightedMean.usable_of_between (1 / 2) (by norm_num) (by norm_num) ?_ ?_)
    · exact hof (fun _ => 1.0) (fun _ => 1) fun w => by simp
    · refine hof (fun w => if w < 0.0 then 1.0 else 0.5) _ fun w => ?_
      have hhalf : val (0.5 : F) = 1 / 2 := by
        rw [ExactDouble.val_ofScientific]
        norm_num
      have hscore : val (if w < 0.0 then 1.0 else 0.5 : F)
          = WeightedMean.against (1 / 2) 1 (val w) := by
        simp only [WeightedMean.against, val_lt, val_zero]
        split_ifs
        · exact val_one
        · exact hhalf
      obtain ⟨hlow, hhigh⟩ := WeightedMean.against_bounds (by norm_num : (1 / 2 : ℝ) ≤ 1) (val w)
      rw [hscore]
      exact ⟨rfl, by linarith, hhigh⟩
  · intro h others htypes hunit
    exact ((usable_congr pol domains htypes).mpr h).between pol others hunit

end

/-- **The aggregate lies between the scores when the role weights are usable**: those of
the domains in the snapshot are not negative, and one of them is positive. No other weights
keep it there whatever the domains score. The first part is about the snapshot at hand. The
second says why the condition is the right one: with weights that break it, some scores of
domains of the same types put the aggregate outside of them. -/
theorem aggregate_between_iff (ops : List (Op F)) (nowMs : UInt64) (polls : List (Poll F))
    {pub : Published F}
    (hpub : pub ∈ (step (runFrom PressureRuntime.init ops) (.refresh nowMs polls)).2) :
    let pol := (runFrom (PressureRuntime.init : PressureRuntime F) ops).policy
    (RoleWeightsUsable pol pub.snapshot.domains →
        BetweenScores pub.snapshot.domains pub.snapshot.aggregateScore) ∧
      ((∀ others : List (DomainState F),
          others.map DomainState.type = pub.snapshot.domains.map DomainState.type →
          (∀ d ∈ others, d.ScoreUnit) → BetweenScores others (aggregateScoreOf pol others)) ↔
        RoleWeightsUsable pol pub.snapshot.domains) := by
  intro pol
  refine ⟨?_, forall_between_iff pol _⟩
  intro husable
  have hunit : ∀ d ∈ pub.snapshot.domains, d.ScoreUnit := by
    rw [← current_of_published hpub]
    exact scoreUnit_step (scoreUnit_run ops) _
  obtain ⟨_, _, log, -, -, rfl⟩ := step_publishes hpub
  exact husable.between pol _ hunit

/-- One poll of a host that is 40 % full and a card that is 90 % full. -/
def hostAndCard : Poll ℚ where
  name := "node"
  outcome := .returned { observations :=
    [{ id := { high := 0, low := 1 }, type := .hostMemory, totalCapacity := 100, committed := 40 },
     { id := { high := 0, low := 2 }, type := .acceleratorMemory, totalCapacity := 100,
       committed := 90 }] }

/-- Under the default policy every role weighs 1. -/
theorem aggregate_between_default :
    ∃ pub, pub ∈ (step (runFrom PressureRuntime.init [.registerProvider "node"])
        (.refresh 1000 [hostAndCard])).2 ∧
      BetweenScores pub.snapshot.domains pub.snapshot.aggregateScore := by
  obtain ⟨pub, hpub, husable⟩ :
      ∃ pub ∈ (step (runFrom PressureRuntime.init [.registerProvider "node"])
        (.refresh 1000 [hostAndCard])).2,
        RoleWeightsUsable (runFrom PressureRuntime.init [.registerProvider "node"]).policy
          pub.snapshot.domains := by
    decide +kernel
  exact ⟨pub, hpub, (aggregate_between_iff _ 1000 [hostAndCard] hpub).1 husable⟩

/-- A policy that counts the host twice and accelerators against it. -/
def lopsidedPolicy : PressurePolicy ℚ :=
  { defaultPolicy with
    aggregate := { roleWeight :=
      ((∅ : Finmap fun _ : TierRole => ℚ).insert .root 2.0).insert .accelerator (-1.0) } }

/-- The policy is accepted, and the aggregate is below both scores. -/
theorem aggregate_below_scores :
    validatePolicy lopsidedPolicy = none ∧
      ∃ pub ∈ (step (runFrom PressureRuntime.init
          [.setPolicy lopsidedPolicy, .registerProvider "node"]) (.refresh 1000 [hostAndCard])).2,
        pub.snapshot.domains ≠ [] ∧
          ¬ BetweenScores pub.snapshot.domains pub.snapshot.aggregateScore := by
  refine ⟨by decide +kernel, ?_⟩
  have hempty : ∃ pub ∈ (step (runFrom PressureRuntime.init
      [.setPolicy lopsidedPolicy, .registerProvider "node"]) (.refresh 1000 [hostAndCard])).2,
      pub.snapshot.domains.isEmpty = false ∧
        ¬ BetweenScores pub.snapshot.domains pub.snapshot.aggregateScore := by
    decide +kernel
  obtain ⟨pub, hpub, hne, hbetween⟩ := hempty
  exact ⟨pub, hpub, List.isEmpty_eq_false_iff.mp hne, hbetween⟩

end MemoryPressure
