import Mathlib.Algebra.Order.Archimedean.Real.Basic
import Mathlib.Tactic.Linarith
import MemoryPressure.Synthetic

/-!
# The curves of the synthetic provider (`synthetic.cpp`)

In exact arithmetic a curve is a `ramp` between two levels, a step, or two ramps one after
the other; the sawtooth alone is none of these.

- `utilFor_rises`: the curves that never fall;
- `utilFor_settled`: all but the sawtooth come to rest.

**From curves to observations.** `Ramps v x y c` says that a curve goes from `x` to
`x + y` in `c` steps and stays there. The branches of `primaryCurve` are put together of
these (`ramps_growth`, `ramps_noRecovery`, `ramps_slowRecovery` and so on), and the two facts
that matter follow from the shape alone: a ramp that climbs never falls (`Ramps.mono`), and
it is at rest after its last step (`Ramps.settled`). `Plays` sorts the branches of
`util_for` by the curve a domain is given, so that each later proof has one case per curve
and not one per scenario and group. Truncation to bytes is monotone, which carries both
facts over to what is observed (`committedAt_rises`, `committedAt_settled`).

**What the names of the source hide.** A scenario that recovers does so for some groups
only, and `MultiGpu` divides by a number of steps that depends on the domain's phase.
`Rises` and `Settled` are the exact provisos: for which domains a scenario never lowers the
load, and from which tick on it changes nothing. In `MultiGpu` a domain of the group `gpu`
whose phase makes that number negative satisfies neither, and one that starts above its
final level comes down.

Rounding is left out: with `double` a curve may move by an ulp where it is at rest.
-/

namespace MemoryPressure

open ExactDouble (val)

/-- Numbers that denote reals, with the operations of the synthetic provider. -/
class ExactCurve (F : Type) [CurveDouble F] extends ExactDouble F where
  val_abs : ∀ a : F, val (CurveDouble.abs a) = |val a|
  val_fmod : ∀ a b : F, 0 ≤ val a → 0 < val b →
    val (CurveDouble.fmod a b) = val a - val b * ⌊val a / val b⌋
  toNat_truncate : ∀ a : F, 0 ≤ val a → val a < 2 ^ 64 →
    (CurveDouble.truncate a).toNat = ⌊val a⌋₊

instance : CurveDouble ℚ where
  abs q := |q|
  fmod a b := a - b * (if a / b < 0 then ⌈a / b⌉ else ⌊a / b⌋ : ℤ)
  truncate q := UInt64.ofNat ⌊q⌋₊

instance : ExactCurve ℚ where
  val_abs := Rat.cast_abs
  val_fmod a b ha hb := by
    have hquot : ¬ a / b < 0 := by
      have ha' : 0 ≤ a := Rat.cast_nonneg.mp ha
      have hb' : 0 < b := Rat.cast_pos.mp hb
      exact not_lt.mpr (div_nonneg ha' hb'.le)
    show ((a - b * (if _ then _ else _ : ℤ) : ℚ) : ℝ) = a - b * ⌊(a : ℝ) / b⌋
    rw [if_neg hquot, ← Rat.cast_div, Rat.floor_cast]
    push_cast
    rfl
  toNat_truncate a ha hlt := by
    have hfloor : ⌊(a : ℝ)⌋₊ = ⌊a⌋₊ := by
      rw [← Int.floor_toNat, Rat.floor_cast, Int.floor_toNat]
    have hsmall : ⌊a⌋₊ < 2 ^ 64 := by
      rw [← hfloor]
      exact (Nat.floor_lt ha).mpr (by exact_mod_cast hlt)
    show (UInt64.ofNat ⌊a⌋₊).toNat = ⌊(a : ℝ)⌋₊
    rw [hfloor]
    exact UInt64.toNat_ofNat_of_lt' hsmall

/-- From 0 to 1 in `c` steps. -/
noncomputable def ramp (c : ℝ) (n : ℕ) : ℝ := min 1 (n / c)

section

variable {c : ℝ} {m n : ℕ}

theorem ramp_le_one (c : ℝ) (n : ℕ) : ramp c n ≤ 1 := min_le_left _ _

theorem ramp_mono (hc : 0 < c) (hmn : m ≤ n) : ramp c m ≤ ramp c n :=
  min_le_min le_rfl (div_le_div_of_nonneg_right (Nat.cast_le.mpr hmn) hc.le)

/-- A number of steps is reached with any smaller whole number. -/
theorem le_steps {a : ℕ} (ha : c ≤ a) (hn : a ≤ n) : c ≤ n := ha.trans (Nat.cast_le.mpr hn)

/-- A ramp is over after `c` steps. -/
theorem ramp_eq_one (hc : 0 < c) (hn : c ≤ n) : ramp c n = 1 :=
  min_eq_left ((one_le_div hc).mpr hn)

end

variable {F : Type} [CurveDouble F] [ExactCurve F]

namespace Synthetic

theorem val_ramp (c : F) (n : ℕ) :
    val (Double.min 1.0 (Double.ofNat n / c)) = ramp (val c) n := by
  rw [ExactDouble.val_min, ExactDouble.val_div, ExactDouble.val_ofNat, ExactDouble.val_one, ramp]

/-- What the curves make of a phase: a fraction. -/
theorem val_phase (phase : F) :
    val (CurveDouble.fmod (CurveDouble.abs phase) 1.0) = Int.fract |val phase| := by
  rw [ExactCurve.val_fmod, ExactCurve.val_abs, ExactDouble.val_one, one_mul, div_one, Int.fract]
  · rw [ExactCurve.val_abs]
    exact abs_nonneg _
  · rw [ExactDouble.val_one]
    exact zero_lt_one

/-- The share of its growth a phase leaves to a curve. -/
noncomputable def share (phase : F) : ℝ := 1 - 0.3 * Int.fract |val phase|

theorem share_nonneg (phase : F) : 0 ≤ share phase := by
  have := Int.fract_lt_one |val phase|
  unfold share
  linarith

/-! ## Ramps -/

/-- From `x` to `x + y` in `c` steps. -/
structure Ramps (v : ℕ → F) (x y c : ℝ) : Prop where
  pos : 0 < c
  val_eq : ∀ n, val (v n) = x + y * ramp c n

namespace Ramps

variable {v : ℕ → F} {x y c : ℝ} {m n : ℕ}

theorem add {a b d : F} (ha : val a = x) (hb : val b = y) (hd : val d = c) (hc : 0 < c) :
    Ramps (fun n => a + b * Double.min 1.0 (Double.ofNat n / d)) x y c where
  pos := hc
  val_eq := fun n => by rw [ExactDouble.val_add, ExactDouble.val_mul, val_ramp, ha, hb, hd]

theorem sub {a b d : F} (ha : val a = x) (hb : val b = y) (hd : val d = c) (hc : 0 < c) :
    Ramps (fun n => a - b * Double.min 1.0 (Double.ofNat n / d)) x (-y) c where
  pos := hc
  val_eq := fun n => by
    rw [ExactDouble.val_sub, ExactDouble.val_mul, val_ramp, ha, hb, hd, neg_mul, sub_eq_add_neg]

/-- A ramp that climbs never falls. -/
theorem mono (h : Ramps v x y c) (hy : 0 ≤ y) (hmn : m ≤ n) :
    val (Double.clamp01 (v m)) ≤ val (Double.clamp01 (v n)) := by
  refine ExactDouble.clamp01_mono ?_
  rw [h.val_eq, h.val_eq]
  have hramp := ramp_mono h.pos hmn
  gcongr

/-- A ramp is at rest after `c` steps. -/
theorem settled (h : Ramps v x y c) (hm : c ≤ m) (hn : c ≤ n) :
    val (Double.clamp01 (v m)) = val (Double.clamp01 (v n)) := by
  rw [ExactDouble.val_clamp01, ExactDouble.val_clamp01, h.val_eq, h.val_eq, ramp_eq_one h.pos hm,
    ramp_eq_one h.pos hn]

end Ramps

/-- A decimal denotes itself. -/
theorem val_decimal (m : Nat) (s : Bool) (e : Nat) :
    val (OfScientific.ofScientific m s e : F) = OfScientific.ofScientific m s e :=
  ExactDouble.val_ofScientific m s e

/-- The growth most scenarios share. -/
theorem ramps_growth (phase : F) :
    Ramps (fun n => 0.15 + 0.85 * Double.min 1.0 (Double.ofNat n / 50.0)
        * (1.0 - 0.3 * CurveDouble.fmod (CurveDouble.abs phase) 1.0))
      0.15 (0.85 * share phase) 50.0 where
  pos := by norm_num
  val_eq := fun n => by
    have hshare : val (1.0 - 0.3 * CurveDouble.fmod (CurveDouble.abs phase) 1.0) = share phase := by
      rw [ExactDouble.val_sub, ExactDouble.val_mul, val_phase, ExactDouble.val_one, val_decimal,
        share]
    rw [ExactDouble.val_add, ExactDouble.val_mul, ExactDouble.val_mul, val_ramp, hshare,
      val_decimal, val_decimal, val_decimal]
    exact congrArg _ (mul_right_comm ..)

/-- The growth of `NoRecovery` until it jams. -/
theorem ramps_noRecovery :
    Ramps (fun n => (0.15 + 0.83 * Double.min 1.0 (Double.ofNat n / 18.0) : F)) 0.15 0.83 18.0 :=
  .add (val_decimal ..) (val_decimal ..) (val_decimal ..) (by norm_num)

/-- **The curves of a pressured group**, but for the two that come down, never fall. -/
theorem primaryCurve_mono {sc : SyntheticScenario} (hsc : sc ≠ .sawtooth ∧ sc ≠ .slowRecovery)
    (phase : F) {m n : ℕ} (hmn : m ≤ n) :
    val (primaryCurve sc phase m) ≤ val (primaryCurve sc phase n) := by
  have hgrows := (ramps_growth phase).mono
    (mul_nonneg (by norm_num) (share_nonneg phase)) hmn
  cases sc with
  | sawtooth => exact absurd rfl hsc.1
  | slowRecovery => exact absurd rfl hsc.2
  | rapidSpike =>
    show val (if _ then _ else _) ≤ val (if _ then _ else _)
    by_cases hm : m ≥ 6
    · rw [if_pos hm, if_pos (hm.trans hmn)]
    · rw [if_neg hm]
      split_ifs
      -- the phase weighs less than the spike
      · have hfract := Int.fract_lt_one |val phase|
        refine ExactDouble.clamp01_mono ?_
        simp only [ExactDouble.val_add, ExactDouble.val_mul, val_phase, val_decimal]
        linarith
      · exact le_rfl
  | noRecovery =>
    show val (if _ then _ else _) ≤ val (if _ then _ else _)
    by_cases hm : m ≥ 18
    · rw [if_pos hm, if_pos (hm.trans hmn)]
    · rw [if_neg hm]
      split_ifs
      · rw [ExactDouble.val_clamp01, ramps_noRecovery.val_eq, val_decimal]
        have hone := ramp_le_one 18.0 m
        refine max_le (by norm_num) ((min_le_right _ _).trans ?_)
        linarith
      · exact ramps_noRecovery.mono (by norm_num) hmn
  | _ => exact hgrows

/-- The descent of `SlowRecovery`. -/
theorem ramps_slowRecovery :
    Ramps (fun n => (0.97 - 0.82 * Double.min 1.0 (Double.ofNat n / 100.0) : F))
      0.97 (-0.82) 100.0 :=
  .sub (val_decimal ..) (val_decimal ..) (val_decimal ..) (by norm_num)

/-- **The curves of a pressured group**, but for the sawtooth, come to rest. -/
theorem primaryCurve_settled {sc : SyntheticScenario} (hsc : sc ≠ .sawtooth) (phase : F) {m n : ℕ}
    (hm : 120 ≤ m) (hn : 120 ≤ n) :
    val (primaryCurve sc phase m) = val (primaryCurve sc phase n) := by
  have hgrown := (ramps_growth phase).settled (le_steps (a := 120) (by norm_num) hm)
    (le_steps (a := 120) (by norm_num) hn)
  cases sc with
  | sawtooth => exact absurd rfl hsc
  | rapidSpike =>
    show val (if _ then _ else _) = val (if _ then _ else _)
    rw [if_pos (by omega), if_pos (by omega)]
  | noRecovery =>
    show val (if _ then _ else _) = val (if _ then _ else _)
    rw [if_pos (by omega), if_pos (by omega)]
  | slowRecovery =>
    show val (if _ then _ else _) = val (if _ then _ else _)
    rw [if_neg (by omega), if_neg (by omega)]
    exact ramps_slowRecovery.settled (le_steps (a := 100) (by norm_num) (by omega))
      (le_steps (a := 100) (by norm_num) (by omega))
  | _ => exact hgrown

/-- What the sawtooth makes of a tick: where it is in its period. -/
theorem val_period (a : F) (ha : 0 ≤ val a) :
    val (CurveDouble.fmod a 24.0 / 24.0) = Int.fract (val a / 24.0) := by
  have hpos : (0 : ℝ) < val (24.0 : F) := by
    rw [val_decimal]
    norm_num
  rw [ExactDouble.val_div, ExactCurve.val_fmod a _ ha hpos, sub_div,
    mul_div_cancel_left₀ _ hpos.ne',
    val_decimal, Int.fract]

/-- The sawtooth stays between its two ends. -/
theorem tooth_unit {x : F} (hlow : 0 ≤ val x) (hhigh : val x < 1) :
    0 ≤ val (if x < 0.5 then 0.25 + (0.98 - 0.25) * (2.0 * x)
        else 0.98 - (0.98 - 0.25) * (2.0 * x - 1.0)) ∧
      val (if x < 0.5 then 0.25 + (0.98 - 0.25) * (2.0 * x)
        else 0.98 - (0.98 - 0.25) * (2.0 * x - 1.0)) ≤ 1 := by
  split_ifs with hhalf
  · rw [ExactDouble.val_lt, val_decimal] at hhalf
    simp only [ExactDouble.val_add, ExactDouble.val_mul, ExactDouble.val_sub, val_decimal]
    norm_num at hhalf ⊢
    constructor <;> linarith
  · rw [ExactDouble.val_lt, val_decimal] at hhalf
    simp only [ExactDouble.val_mul, ExactDouble.val_sub, val_decimal]
    norm_num at hhalf ⊢
    constructor <;> linarith

/-- The curves of a pressured group are shares of the capacity. -/
theorem primaryCurve_unit (sc : SyntheticScenario) (phase : F) (tick : ℕ) :
    0 ≤ val (primaryCurve sc phase tick) ∧ val (primaryCurve sc phase tick) ≤ 1 := by
  cases sc with
  | sawtooth =>
    have hpos :
        0 ≤ val (Double.ofNat tick + CurveDouble.fmod (CurveDouble.abs phase) 1.0 * 24.0) := by
      rw [ExactDouble.val_add, ExactDouble.val_mul, ExactDouble.val_ofNat, val_phase, val_decimal]
      have := Int.fract_nonneg |val phase|
      positivity
    have hval := val_period _ hpos
    exact tooth_unit (hval ▸ Int.fract_nonneg _) (hval ▸ Int.fract_lt_one _)
  | rapidSpike =>
    show 0 ≤ val (if _ then _ else _) ∧ val (if _ then _ else _) ≤ 1
    split_ifs <;> exact ExactDouble.clamp01_unit _
  | slowRecovery =>
    show 0 ≤ val (if _ then _ else _) ∧ val (if _ then _ else _) ≤ 1
    split_ifs <;> exact ExactDouble.clamp01_unit _
  | noRecovery =>
    show 0 ≤ val (if _ then _ else _) ∧ val (if _ then _ else _) ≤ 1
    split_ifs
    · rw [val_decimal]
      norm_num
    · exact ExactDouble.clamp01_unit _
  | _ => exact ExactDouble.clamp01_unit _

/-! ## What a domain plays -/

/-- The curve a scenario has for a domain. -/
inductive Plays (d : SyntheticDomainSpec F) (sc : SyntheticScenario) : Prop
  | rests : (∀ t, utilFor d sc t = d.base) → Plays d sc
  | follows (sc' : SyntheticScenario) (k : ℕ) : sc ≠ .multiGpu →
      sc' = sc ∧ (d.group = "gpu" ∨ isHostlike d.group) ∨ sc' = .gradualGrowth ∧ sc ≠ .sawtooth →
      (∀ t, utilFor d sc t = primaryCurve sc' d.phase (t + k)) → Plays d sc
  | pins : sc = .pinnedExhaustion → (∀ t, utilFor d sc t =
      Double.clamp01 (0.05 + 0.95 * Double.min 1.0 (Double.ofNat t / 30.0))) → Plays d sc
  | fills : sc = .multiGpu → d.group = "gpu" → (∀ t, utilFor d sc t = Double.clamp01
      (d.base + (0.97 - d.base) * Double.min 1.0 (Double.ofNat t / (40.0 + 15.0 * d.phase)))) →
      Plays d sc
  | worsens : sc = .oneRecovering → (∀ t, utilFor d sc t = if t ≥ 15 then 0.97
      else Double.clamp01 (0.2 + 0.77 * Double.min 1.0 (Double.ofNat t / 15.0))) → Plays d sc
  | recovers : sc = .oneRecovering → d.group = "gpu1" → (∀ t, utilFor d sc t = if t ≥ 20 then
      Double.clamp01 (0.97 - 0.72 * Double.min 1.0 (Double.ofNat (t - 20) / 60.0)) else 0.97) →
      Plays d sc

omit [ExactCurve F] in
/-- Unless it is named, a scenario plays its own curve to the pressured groups. -/
theorem plays_default {d : SyntheticDomainSpec F} {sc : SyntheticScenario}
    (hsc : sc ≠ .hostOnly ∧ sc ≠ .simultaneous ∧ sc ≠ .gpuOnly ∧ sc ≠ .multiGpu)
    (h : ∀ t, utilFor d sc t =
      if d.group ≠ "" ∧ (d.group = "gpu" ∨ isHostlike d.group) then
        if d.group = "gpu" then primaryCurve sc d.phase t
        else if sc = .hostOnly ∨ sc = .simultaneous then primaryCurve sc d.phase t
        else if isHostlike d.group ∧ sc ≠ .gpuOnly then primaryCurve sc d.phase t
        else d.base
      else d.base) : Plays d sc := by
  by_cases hgroup : d.group = "gpu" ∨ isHostlike d.group
  · refine .follows sc 0 hsc.2.2.2 (Or.inl ⟨rfl, hgroup⟩) fun t => ?_
    have hne : d.group ≠ "" := by
      rintro hnil
      rw [hnil] at hgroup
      exact absurd hgroup (by decide)
    have hother : ¬ (sc = .hostOnly ∨ sc = .simultaneous) := fun hor => hor.elim hsc.1 hsc.2.1
    rw [h, if_pos ⟨hne, hgroup⟩, Nat.add_zero, if_neg hother]
    rcases hgroup with hgpu | hhost
    · rw [if_pos hgpu]
    · have hplays : isHostlike d.group = true ∧ sc ≠ .gpuOnly := ⟨hhost, hsc.2.2.1⟩
      rw [if_pos hplays, ite_self]
  · exact .rests fun t => by rw [h, if_neg (mt And.right hgroup)]

omit [ExactCurve F] in
/-- **Every scenario has a curve for every domain.** -/
theorem plays (d : SyntheticDomainSpec F) (sc : SyntheticScenario) : Plays d sc := by
  cases sc with
  | gpuOnly =>
    by_cases hg : d.group = "gpu"
    · exact .follows .gradualGrowth 0 (by decide) (Or.inr ⟨rfl, by decide⟩) fun t => if_pos hg
    · exact .rests fun t => if_neg hg
  | hostOnly =>
    by_cases hg : isHostlike d.group
    · exact .follows .gradualGrowth 0 (by decide) (Or.inr ⟨rfl, by decide⟩) fun t => if_pos hg
    · exact .rests fun t => if_neg hg
  | simultaneous =>
    by_cases hg : d.group = "gpu"
    · exact .follows .gradualGrowth 0 (by decide) (Or.inr ⟨rfl, by decide⟩) fun t => if_pos hg
    · by_cases hh : isHostlike d.group
      · exact .follows .gradualGrowth 10 (by decide) (Or.inr ⟨rfl, by decide⟩) fun t =>
          (if_neg hg).trans (if_pos hh)
      · exact .rests fun t => (if_neg hg).trans (if_neg hh)
  | persistentTier =>
    by_cases hg : d.group = "persistent"
    · exact .follows .gradualGrowth 0 (by decide) (Or.inr ⟨rfl, by decide⟩) fun t => if_pos hg
    · exact .rests fun t => if_neg hg
  | pinnedExhaustion =>
    by_cases hg : d.group = "pinned"
    · exact .pins rfl fun t => if_pos hg
    · exact .rests fun t => if_neg hg
  | multiGpu =>
    by_cases hg : d.group = "gpu"
    · exact .fills rfl hg fun t => if_pos hg
    · exact .rests fun t => if_neg hg
  | oneRecovering =>
    by_cases hg : d.group = "gpu0"
    · exact .worsens rfl fun t => if_pos hg
    · by_cases hg' : d.group = "gpu1"
      · exact .recovers rfl hg' fun t => (if_neg hg).trans (if_pos hg')
      · exact .rests fun t => (if_neg hg).trans (if_neg hg')
  | _ => exact plays_default (by decide) fun _ => rfl

/-- A scenario that never relieves the domain. -/
def Rises (d : SyntheticDomainSpec F) : SyntheticScenario → Prop
  | .sawtooth | .slowRecovery => ¬ (d.group = "gpu" ∨ isHostlike d.group)
  | .oneRecovering => d.group ≠ "gpu1"
  | .multiGpu => d.group = "gpu" → 0.0 < 40.0 + 15.0 * d.phase ∧ d.base ≤ 0.97
  | _ => True

/-- From this tick on the scenario changes nothing for the domain. -/
def Settled (d : SyntheticDomainSpec F) (tick : ℕ) : SyntheticScenario → Prop
  | .sawtooth => ¬ (d.group = "gpu" ∨ isHostlike d.group)
  | .multiGpu => d.group = "gpu" →
      0.0 < 40.0 + 15.0 * d.phase ∧ 40.0 + 15.0 * d.phase ≤ Double.ofNat tick
  | _ => 120 ≤ tick

/-- What `PinnedExhaustion` plays to the pinned domains. -/
theorem ramps_pinned :
    Ramps (fun n => (0.05 + 0.95 * Double.min 1.0 (Double.ofNat n / 30.0) : F)) 0.05 0.95 30.0 :=
  .add (val_decimal ..) (val_decimal ..) (val_decimal ..) (by norm_num)

/-- What `MultiGpu` plays, for a phase that is not too negative. -/
theorem ramps_multiGpu {d : SyntheticDomainSpec F} (hphase : 0.0 < 40.0 + 15.0 * d.phase) :
    Ramps (fun n => d.base + (0.97 - d.base) * Double.min 1.0
        (Double.ofNat n / (40.0 + 15.0 * d.phase)))
      (val d.base) (0.97 - val d.base) (val (40.0 + 15.0 * d.phase)) := by
  refine .add rfl ?_ rfl ?_
  · rw [ExactDouble.val_sub, val_decimal]
  · rwa [ExactDouble.val_lt, ExactDouble.val_zero] at hphase

theorem ramps_worsens :
    Ramps (fun n => (0.2 + 0.77 * Double.min 1.0 (Double.ofNat n / 15.0) : F)) 0.2 0.77 15.0 :=
  .add (val_decimal ..) (val_decimal ..) (val_decimal ..) (by norm_num)

theorem ramps_recovers :
    Ramps (fun n => (0.97 - 0.72 * Double.min 1.0 (Double.ofNat n / 60.0) : F)) 0.97 (-0.72) 60.0 :=
  .sub (val_decimal ..) (val_decimal ..) (val_decimal ..) (by norm_num)

/-- **Scenarios that never relieve** a domain never lower its load. -/
theorem utilFor_rises {d : SyntheticDomainSpec F} {sc : SyntheticScenario} (h : Rises d sc)
    {m n : ℕ} (hmn : m ≤ n) : val (utilFor d sc m) ≤ val (utilFor d sc n) := by
  rcases plays d sc with hbase | ⟨sc', k, -, hsc', heq⟩ | ⟨-, heq⟩ | ⟨rfl, hg, heq⟩ | ⟨-, heq⟩ |
    ⟨rfl, hg, -⟩
  · rw [hbase, hbase]
  · rw [heq, heq]
    refine primaryCurve_mono ?_ _ (Nat.add_le_add_right hmn k)
    rcases hsc' with ⟨rfl, hgroup⟩ | ⟨rfl, -⟩
    · exact ⟨by rintro rfl; exact h hgroup, by rintro rfl; exact h hgroup⟩
    · decide
  · rw [heq, heq]
    exact ramps_pinned.mono (by norm_num) hmn
  · rw [heq, heq]
    obtain ⟨hphase, hroom⟩ := h hg
    rw [ExactDouble.val_le, val_decimal] at hroom
    exact (ramps_multiGpu hphase).mono (sub_nonneg.mpr hroom) hmn
  · rw [heq, heq]
    by_cases hm : m ≥ 15
    · rw [if_pos hm, if_pos (hm.trans hmn)]
    · rw [if_neg hm]
      split_ifs
      · rw [ExactDouble.val_clamp01, ramps_worsens.val_eq, val_decimal]
        have hone := ramp_le_one 15.0 m
        refine max_le (by norm_num) ((min_le_right _ _).trans ?_)
        linarith
      · exact ramps_worsens.mono (by norm_num) hmn
  · exact absurd hg h

/-- **Scenarios come to rest.** -/
theorem utilFor_settled {d : SyntheticDomainSpec F} {sc : SyntheticScenario} {start m n : ℕ}
    (h : Settled d start sc) (hm : start ≤ m) (hn : start ≤ n) :
    val (utilFor d sc m) = val (utilFor d sc n) := by
  -- but for the two that are named, a scenario is at rest after 120 steps
  have hlate : sc ≠ .sawtooth → sc ≠ .multiGpu → 120 ≤ start := by
    intro hsaw hmulti
    cases sc <;> first | exact h | exact absurd rfl hsaw | exact absurd rfl hmulti
  rcases plays d sc with hbase | ⟨sc', k, hmulti, hsc', heq⟩ | ⟨rfl, heq⟩ | ⟨rfl, hg, heq⟩ |
    ⟨rfl, heq⟩ | ⟨rfl, hg, heq⟩
  · rw [hbase, hbase]
  · have hsaw : sc ≠ .sawtooth ∧ sc' ≠ .sawtooth := by
      rcases hsc' with ⟨rfl, hgroup⟩ | ⟨rfl, hsaw⟩
      · exact ⟨by rintro rfl; exact h hgroup, by rintro rfl; exact h hgroup⟩
      · exact ⟨hsaw, by decide⟩
    have hstart := hlate hsaw.1 hmulti
    rw [heq, heq]
    exact primaryCurve_settled hsaw.2 _ (by omega) (by omega)
  · have hstart := hlate (by decide) (by decide)
    rw [heq, heq]
    exact ramps_pinned.settled (le_steps (a := 30) (by norm_num) (by omega))
      (le_steps (a := 30) (by norm_num) (by omega))
  · obtain ⟨hphase, hover⟩ := h hg
    rw [ExactDouble.val_le, ExactDouble.val_ofNat] at hover
    rw [heq, heq]
    exact (ramps_multiGpu hphase).settled (hover.trans (Nat.cast_le.mpr hm))
      (hover.trans (Nat.cast_le.mpr hn))
  · have hstart := hlate (by decide) (by decide)
    rw [heq, heq, if_pos (by omega), if_pos (by omega)]
  · have hstart := hlate (by decide) (by decide)
    rw [heq, heq, if_pos (by omega), if_pos (by omega)]
    exact ramps_recovers.settled (le_steps (a := 60) (by norm_num) (by omega))
      (le_steps (a := 60) (by norm_num) (by omega))

/-- **The load is a share of the capacity**, or what the domain is at rest. -/
theorem utilFor_unit (d : SyntheticDomainSpec F) (sc : SyntheticScenario) :
    (∀ t, utilFor d sc t = d.base) ∨
      ∀ t, 0 ≤ val (utilFor d sc t) ∧ val (utilFor d sc t) ≤ 1 := by
  have hlit : 0 ≤ val (0.97 : F) ∧ val (0.97 : F) ≤ 1 := by
    rw [val_decimal]
    norm_num
  rcases plays d sc with hbase | ⟨sc', k, -, -, heq⟩ | ⟨-, heq⟩ | ⟨-, -, heq⟩ | ⟨-, heq⟩ |
    ⟨-, -, heq⟩
  · exact Or.inl hbase
  · exact Or.inr fun t => heq t ▸ primaryCurve_unit ..
  · exact Or.inr fun t => heq t ▸ ExactDouble.clamp01_unit _
  · exact Or.inr fun t => heq t ▸ ExactDouble.clamp01_unit _
  · refine Or.inr fun t => ?_
    rw [heq]
    split_ifs
    · exact hlit
    · exact ExactDouble.clamp01_unit _
  · refine Or.inr fun t => ?_
    rw [heq]
    split_ifs
    · exact ExactDouble.clamp01_unit _
    · exact hlit

end Synthetic

/-! ## What is observed -/

namespace SyntheticProvider

open Synthetic (utilFor Rises Settled utilFor_rises utilFor_settled utilFor_unit)

variable {d : SyntheticDomainSpec F} {sc : SyntheticScenario} {m n start : ℕ}

/-- What is committed of a domain whose load is a share of its capacity. -/
theorem toNat_committedAt (hlow : 0 ≤ val (utilFor d sc n)) (hhigh : val (utilFor d sc n) ≤ 1) :
    (committedAt sc n d).toNat = ⌊d.totalCapacity.toNat * val (utilFor d sc n)⌋₊ := by
  have hcap : (d.totalCapacity.toNat : ℝ) < 2 ^ 64 := by exact_mod_cast d.totalCapacity.toNat_lt
  have hcap' : (0 : ℝ) ≤ d.totalCapacity.toNat := Nat.cast_nonneg _
  rw [committedAt, ExactCurve.toNat_truncate, ExactDouble.val_mul, ExactDouble.val_ofUInt64]
  · rw [ExactDouble.val_mul, ExactDouble.val_ofUInt64]
    exact mul_nonneg hcap' hlow
  · rw [ExactDouble.val_mul, ExactDouble.val_ofUInt64]
    exact (mul_le_of_le_one_right hcap' hhigh).trans_lt hcap

/-- **A domain that is never relieved** never has less committed. -/
theorem committedAt_rises (h : Rises d sc) (hmn : m ≤ n) :
    committedAt sc m d ≤ committedAt sc n d := by
  rcases utilFor_unit d sc with hbase | hunit
  · rw [committedAt, committedAt, hbase, hbase]
    exact UInt64.le_refl _
  · rw [UInt64.le_iff_toNat_le, toNat_committedAt (hunit m).1 (hunit m).2,
      toNat_committedAt (hunit n).1 (hunit n).2]
    exact Nat.floor_le_floor (mul_le_mul_of_nonneg_left (utilFor_rises h hmn) (Nat.cast_nonneg _))

/-- **A domain at rest** always has the same committed. -/
theorem committedAt_settled (h : Settled d start sc) (hm : start ≤ m) (hn : start ≤ n) :
    committedAt sc m d = committedAt sc n d := by
  rcases utilFor_unit d sc with hbase | hunit
  · rw [committedAt, committedAt, hbase, hbase]
  · rw [← UInt64.toNat_inj, toNat_committedAt (hunit m).1 (hunit m).2,
      toNat_committedAt (hunit n).1 (hunit n).2, utilFor_settled h hm hn]

end SyntheticProvider

end MemoryPressure
