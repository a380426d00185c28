import Mathlib.Order.Defs.Unbundled
import MemoryPressure.ClosedLoop

/-!
# The classifier keeps order (`core.cpp`)

`evaluate_level` runs one ladder of comparisons for each level a domain can be
at. Across all of them a higher utilization never gives a lower level, and
neither does a higher current level (`evaluateLevel_mono`). The argument needs
no order on the thresholds: it rests on what the ladders have in common, that
they climb to the highest level entered (`evaluateLevel_noneAbove`) and fall by
one level at most, past its exit threshold (`evaluateLevel_exits`).

So of two calls, either the one with the higher utilization ends no lower because it has
entered a level the other has not, or neither enters anything above and the fall of the one
is a fall of the other (`evaluateLevel_le_of_known`). Comparisons of the number type have to
be transitive (`IsTrans`) and nothing else; no call involves `NaN`, as a comparison with it
would have to hold to be used.
-/

namespace MemoryPressure

variable {F : Type} [Double F]

/-- The level the classifier takes a current level for: no evidence counts as
`Normal` (core.cpp:251). -/
def PressureLevel.known : PressureLevel → PressureLevel
  | .unknown => .normal
  | level => level

theorem PressureLevel.known_ne_unknown (level : PressureLevel) : level.known ≠ .unknown := by
  cases level <;> decide

theorem severityRank_known (level : PressureLevel) :
    severityRank level.known = severityFloor level := by
  cases level <;> rfl

section

variable {u v : F} {level : PressureLevel} {t : Thresholds F}

theorem evaluateLevel_known (u : F) (level : PressureLevel) (t : Thresholds F) :
    evaluateLevel u level.known t = evaluateLevel u level t := by
  cases level <;> rfl

namespace Thresholds.NoneAbove

/-- What a utilization does not enter, a lower one does not. -/
theorem anti [IsTrans F (· ≤ ·)] (h : t.NoneAbove v level) (hle : u ≤ v) : t.NoneAbove u level :=
  fun above habove x hx hin => h above habove x hx (Trans.trans hin hle)

/-- Nothing is entered above a level, so nothing is above a higher one. -/
theorem above {higher : PressureLevel} (h : t.NoneAbove u level)
    (hrank : severityRank level ≤ severityRank higher) : t.NoneAbove u higher :=
  fun next hnext => h next (Int.lt_of_le_of_lt hrank hnext)

end Thresholds.NoneAbove

/-- A level is left when its exit threshold is passed and neither it nor a level
above it is entered. -/
theorem evaluateLevel_of_exits (hexit : ∃ x ∈ t.exit level, u ≤ x)
    (hin : ∀ x ∈ t.enter level, ¬ x ≤ u) (hnone : t.NoneAbove u level) :
    severityRank (evaluateLevel u level t) < severityRank level := by
  obtain ⟨x, hx, hle⟩ := hexit
  have hout : ∀ above, severityRank level ≤ severityRank above → ∀ y ∈ t.enter above, ¬ y ≤ u := by
    intro above habove
    rcases Int.lt_or_eq_of_le habove with hlt | heq
    · exact hnone above hlt
    · exact severityRank_inj heq ▸ hin
  cases level with
  | normal | unknown => cases hx
  | elevated =>
    obtain rfl := Option.some.inj hx
    simp only [evaluateLevel, climb, if_neg (hout .exhausted (by decide) _ rfl),
      if_neg (hout .critical (by decide) _ rfl), if_neg (hout .high (by decide) _ rfl),
      if_neg (hout .elevated (by decide) _ rfl), if_pos hle]
    decide
  | high =>
    obtain rfl := Option.some.inj hx
    simp only [evaluateLevel, if_neg (hout .exhausted (by decide) _ rfl),
      if_neg (hout .critical (by decide) _ rfl), if_neg (hout .high (by decide) _ rfl), if_pos hle]
    decide
  | critical =>
    obtain rfl := Option.some.inj hx
    simp only [evaluateLevel, if_neg (hout .exhausted (by decide) _ rfl),
      if_neg (hout .critical (by decide) _ rfl), if_pos hle]
    decide
  | exhausted =>
    obtain rfl := Option.some.inj hx
    simp only [evaluateLevel, if_neg (hout .exhausted (by decide) _ rfl), if_pos hle]
    decide

/-- Between known levels the classifier keeps order in the utilization and in the
current level. -/
theorem evaluateLevel_le_of_known [IsTrans F (· ≤ ·)] (t : Thresholds F) {u₁ u₂ : F}
    (hu : u₁ ≤ u₂) {c₁ c₂ : PressureLevel} (hknown : c₁ ≠ .unknown)
    (hrank : severityRank c₁ ≤ severityRank c₂) :
    severityRank (evaluateLevel u₁ c₁ t) ≤ severityRank (evaluateLevel u₂ c₂ t) := by
  by_contra hlt
  rw [Int.not_le] at hlt
  have hnone : t.NoneAbove u₁ (evaluateLevel u₂ c₂ t) := (evaluateLevel_noneAbove u₂ c₂ t).anti hu
  -- the first does not enter the level it points to, so it has not risen
  have hstays : severityRank (evaluateLevel u₁ c₁ t) ≤ severityRank c₁ := by
    by_contra hrises
    obtain ⟨x, hx, hin⟩ := evaluateLevel_enters hknown (Int.not_le.mp hrises)
    exact hnone _ hlt x hx hin
  -- the second has fallen by one level, so all four levels are the same but that one
  obtain ⟨hone, x, hx, hexit⟩ := evaluateLevel_exits (Int.lt_of_lt_of_le hlt (hstays.trans hrank))
  have hsame : c₁ = c₂ := severityRank_inj (by omega)
  have hleft := evaluateLevel_of_exits (u := u₁) (t := t) ⟨x, hx, Trans.trans hu hexit⟩
    (hnone _ (by omega)) (hnone.above (by omega))
  rw [← hsame] at hleft
  omega

/-- From one current level, a higher utilization gives no lower level. -/
theorem evaluateLevel_le_of_le [IsTrans F (· ≤ ·)] (t : Thresholds F) {u₁ u₂ : F} (hu : u₁ ≤ u₂)
    (level : PressureLevel) :
    severityRank (evaluateLevel u₁ level t) ≤ severityRank (evaluateLevel u₂ level t) := by
  rw [← evaluateLevel_known u₁ level t, ← evaluateLevel_known u₂ level t]
  exact evaluateLevel_le_of_known t hu level.known_ne_unknown (Int.le_refl _)

/-- **The classifier keeps order** in the utilization and in the current level, whatever
the thresholds are. Nothing is asked of the thresholds, not even that they ascend: the
classifier compares the utilization with one threshold after the other, and a higher
utilization passes each comparison a lower one passes. -/
theorem evaluateLevel_mono [IsTrans F (· ≤ ·)] (t : Thresholds F) {u₁ u₂ : F} (hu : u₁ ≤ u₂)
    {c₁ c₂ : PressureLevel} (hc : severityFloor c₁ ≤ severityFloor c₂) :
    severityRank (evaluateLevel u₁ c₁ t) ≤ severityRank (evaluateLevel u₂ c₂ t) := by
  rw [← evaluateLevel_known u₁ c₁ t, ← evaluateLevel_known u₂ c₂ t]
  have hrank : severityRank c₁.known ≤ severityRank c₂.known := by
    rw [severityRank_known, severityRank_known]
    exact Int.ofNat_le.mpr hc
  exact evaluateLevel_le_of_known t hu c₁.known_ne_unknown hrank

end

/-- Half full at `Normal` is classified no higher than 95 % full at `Elevated`. -/
theorem evaluateLevel_mono_default :
    severityRank (evaluateLevel (1 / 2 : ℚ) .normal {}) ≤
      severityRank (evaluateLevel (95 / 100 : ℚ) .elevated {}) :=
  evaluateLevel_mono {} (by decide +kernel) (by decide)

end MemoryPressure
