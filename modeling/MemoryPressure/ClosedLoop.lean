import MemoryPressure.Debounce
import MemoryPressure.Interpretation

/-!
# The closed loop of classifier and debounce (`core.cpp`, `runtime.cpp`)

`refresh` classifies a utilization by the bands of the level now resolved and
feeds the raw level to the machine that resolves it (runtime.cpp:249). So the output of
the machine goes back into the classifier, and what the two do together is more than what
each does alone.

- `evaluateLevel_rises`, `evaluateLevel_falls`: the classifier climbs to the
  highest level entered and descends one level at a time, and neither turns back.
- `level_change_justified`: every change of the resolved level goes back to as
  many readings as the dwell, or is an emergency.
- `constant_settles`: a constant utilization moves the level one way and no more
  than four times.
- `fluctuation_iff`: what it takes to leave a level when every raw level is above
  it: a row of one of them as long as the dwell.

**Readings.** A reading is what `refresh` has of an observation for the loop, the
utilization and the time; `read` is one turn, `readAll` a run of it. `observe_hysteresis`
says that an observed domain goes through exactly one such turn, so the results are about
the machines of a runtime between two calls of `set_policy`.

**Proof structure.** Changes of level are traced back with the row of the debounce
(`feed_change`). For constant utilizations the classifier alone decides the direction: from
a level it would raise, the first change raises it to where the classifier stays, and from
one it would not, the level falls step by step or stays (`rising_run`, `falling_run`). Raw
levels that vary start new rows, which is why they can keep a domain at `Normal` although
each of them is above it (`fluctuation_masks`). HYSTERESIS.md describes the new pending
window, so this is the design and no slip.
-/

namespace MemoryPressure

variable {F : Type} [Double F]

/-! ## The classifier -/

/-- The threshold at which a level is entered. -/
def Thresholds.enter (t : Thresholds F) : PressureLevel → Option F
  | .elevated => some t.elevatedEnter
  | .high => some t.highEnter
  | .critical => some t.criticalEnter
  | .exhausted => some t.exhaustedEnter
  | .normal | .unknown => none

/-- The threshold at which a level is left for the one below. -/
def Thresholds.exit (t : Thresholds F) : PressureLevel → Option F
  | .elevated => some t.normalExit
  | .high => some t.highExit
  | .critical => some t.criticalExit
  | .exhausted => some t.exhaustedExit
  | .normal | .unknown => none

section

variable {u : F} {t : Thresholds F} {level : PressureLevel}

theorem severityRank_inj {a b : PressureLevel} (h : severityRank a = severityRank b) : a = b := by
  cases a <;> cases b <;> first
    | rfl
    | cases h

theorem severityRank_nonneg {a : PressureLevel} (h : a ≠ .unknown) : 0 ≤ severityRank a := by
  cases a <;> first
    | exact absurd rfl h
    | decide

/-- The utilization enters no level above this one. -/
def Thresholds.NoneAbove (t : Thresholds F) (u : F) (level : PressureLevel) : Prop :=
  ∀ above, severityRank level < severityRank above → ∀ x ∈ t.enter above, ¬ x ≤ u

namespace Thresholds.NoneAbove

theorem exhausted : t.NoneAbove u .exhausted := by
  intro above habove
  cases above <;> exact absurd habove (by decide)

/-- One level down, past a threshold that is not reached. -/
theorem below {next : PressureLevel} (hnone : t.NoneAbove u next)
    (hnext : severityRank next ≤ severityRank level + 1) (hout : ∀ x ∈ t.enter next, ¬ x ≤ u) :
    t.NoneAbove u level := by
  intro above habove
  by_cases hsame : above = next
  · rw [hsame]
    exact hout
  · have hne : severityRank next ≠ severityRank above :=
      fun heq => hsame (severityRank_inj heq).symm
    exact hnone above (by omega)

theorem critical (hexhausted : ¬ u ≥ t.exhaustedEnter) : t.NoneAbove u .critical :=
  exhausted.below (by decide) fun _ hx => Option.some.inj hx ▸ hexhausted

theorem high (hexhausted : ¬ u ≥ t.exhaustedEnter) (hcritical : ¬ u ≥ t.criticalEnter) :
    t.NoneAbove u .high :=
  (critical hexhausted).below (by decide) fun _ hx => Option.some.inj hx ▸ hcritical

theorem elevated (hexhausted : ¬ u ≥ t.exhaustedEnter) (hcritical : ¬ u ≥ t.criticalEnter)
    (hhigh : ¬ u ≥ t.highEnter) : t.NoneAbove u .elevated :=
  (high hexhausted hcritical).below (by decide) fun _ hx => Option.some.inj hx ▸ hhigh

theorem climb {base : PressureLevel} (hbase : base ≠ .unknown) :
    t.NoneAbove u (climb u t base) := by
  unfold MemoryPressure.climb
  split_ifs with hexhausted hcritical hhigh helevated
  · exact exhausted
  · exact critical hexhausted
  · exact high hexhausted hcritical
  · exact elevated hexhausted hcritical hhigh
  -- nothing is entered, so nothing above `base` is either
  · refine (elevated hexhausted hcritical hhigh).below ?_ fun _ hx => Option.some.inj hx ▸ helevated
    have hpos := severityRank_nonneg hbase
    have hone : severityRank .elevated = 1 := rfl
    omega

end Thresholds.NoneAbove

/-- **The classifier climbs at once**: the utilization enters no level above the
one it points to. -/
theorem evaluateLevel_noneAbove (u : F) (level : PressureLevel) (t : Thresholds F) :
    t.NoneAbove u (evaluateLevel u level t) := by
  -- below `High` the bands are those of `climb`; from there on each has its own
  cases level with
  | unknown | normal => exact .climb (by decide)
  | elevated =>
    refine .climb ?_
    split_ifs <;> decide
  | high =>
    simp only [evaluateLevel]
    split_ifs with hexhausted hcritical hhigh hexit
    · exact .exhausted
    · exact .critical hexhausted
    · exact .high hexhausted hcritical
    · exact .elevated hexhausted hcritical hhigh
    · exact .high hexhausted hcritical
  | critical =>
    simp only [evaluateLevel]
    split_ifs with hexhausted hcritical hexit
    · exact .exhausted
    · exact .critical hexhausted
    · exact .high hexhausted hcritical
    · exact .critical hexhausted
  | exhausted =>
    simp only [evaluateLevel]
    split_ifs with hexhausted hexit
    · exact .exhausted
    · exact .critical hexhausted
    · exact .exhausted

theorem climb_enters {base : PressureLevel} (hclimb : climb u t base ≠ base) :
    ∃ x ∈ t.enter (climb u t base), x ≤ u := by
  revert hclimb
  unfold climb
  split_ifs with hexhausted hcritical hhigh helevated <;> intro hclimb
  · exact ⟨_, rfl, hexhausted⟩
  · exact ⟨_, rfl, hcritical⟩
  · exact ⟨_, rfl, hhigh⟩
  · exact ⟨_, rfl, helevated⟩
  · exact absurd rfl hclimb

/-- A level above the current one has been entered. -/
theorem evaluateLevel_enters (hknown : level ≠ .unknown)
    (h : severityRank level < severityRank (evaluateLevel u level t)) :
    ∃ x ∈ t.enter (evaluateLevel u level t), x ≤ u := by
  cases level with
  | unknown => exact absurd rfl hknown
  | normal =>
    refine climb_enters ?_
    intro heq
    revert h
    simp only [evaluateLevel, heq]
    decide
  | elevated =>
    refine climb_enters ?_
    intro heq
    revert h
    simp only [evaluateLevel, heq]
    split_ifs <;> decide
  | high =>
    revert h
    simp only [evaluateLevel]
    split_ifs with hexhausted hcritical <;> intro h
    · exact ⟨_, rfl, hexhausted⟩
    · exact ⟨_, rfl, hcritical⟩
    all_goals exact absurd h (by decide)
  | critical =>
    revert h
    simp only [evaluateLevel]
    split_ifs with hexhausted <;> intro h
    · exact ⟨_, rfl, hexhausted⟩
    all_goals exact absurd h (by decide)
  | exhausted =>
    revert h
    simp only [evaluateLevel]
    split_ifs <;> intro h
    all_goals exact absurd h (by decide)

/-- A level below the current one is the next, and the current one has been
left. -/
theorem evaluateLevel_exits (h : severityRank (evaluateLevel u level t) < severityRank level) :
    severityRank (evaluateLevel u level t) + 1 = severityRank level ∧
      ∃ x ∈ t.exit level, u ≤ x := by
  have hpos := severityRank_nonneg (evaluateLevel_ne_unknown u level t)
  cases level with
  | unknown =>
    have hlt : severityRank .unknown < 0 := by decide
    omega
  | normal =>
    have hzero : severityRank .normal = 0 := rfl
    omega
  | elevated =>
    have hone : severityRank .elevated = 1 := rfl
    -- `Elevated` is left when nothing is entered and the exit threshold is passed
    by_cases hexit : u ≤ t.normalExit
    · exact ⟨by omega, _, rfl, hexit⟩
    · revert h
      simp only [evaluateLevel, if_neg hexit, climb]
      split_ifs <;> exact fun h => absurd h (by decide)
  | high | critical | exhausted =>
    revert h
    simp only [evaluateLevel]
    split_ifs <;> intro h
    all_goals first
      | exact absurd h (by decide)
      | exact ⟨rfl, _, rfl, ‹_›⟩

/-- From a level above which the utilization enters none it does not rise. -/
theorem evaluateLevel_of_noneAbove (hknown : level ≠ .unknown) (hnone : t.NoneAbove u level) :
    severityRank (evaluateLevel u level t) ≤ severityRank level := by
  by_contra hrises
  have habove : severityRank level < severityRank (evaluateLevel u level t) := Int.not_le.mp hrises
  obtain ⟨x, hx, hin⟩ := evaluateLevel_enters hknown habove
  exact hnone _ habove x hx hin

/-- **The classifier does not turn back**: from the level it points to it does
not rise. -/
theorem evaluateLevel_falls (u : F) (level : PressureLevel) (t : Thresholds F) :
    severityRank (evaluateLevel u (evaluateLevel u level t) t)
      ≤ severityRank (evaluateLevel u level t) :=
  evaluateLevel_of_noneAbove (evaluateLevel_ne_unknown u level t)
      (evaluateLevel_noneAbove u level t)

/-- At a level that the utilization enters the classifier stays. -/
theorem evaluateLevel_of_enters (hin : ∃ x ∈ t.enter (evaluateLevel u level t), x ≤ u) :
    evaluateLevel u (evaluateLevel u level t) t = evaluateLevel u level t := by
  obtain ⟨x, hx, hle⟩ := hin
  refine severityRank_inj (le_antisymm (evaluateLevel_falls u level t) ?_)
  by_contra hleft
  exact evaluateLevel_noneAbove u (evaluateLevel u level t) t _ (Int.not_le.mp hleft) x hx hle

/-- At the level it rises to the classifier stays. -/
theorem evaluateLevel_rises (h : severityRank level < severityRank (evaluateLevel u level t)) :
    evaluateLevel u (evaluateLevel u level t) t = evaluateLevel u level t := by
  by_cases hstart : level = .unknown
  · -- no evidence is classified as `Normal` is
    rw [hstart]
    show evaluateLevel u (evaluateLevel u .normal t) t = evaluateLevel u .normal t
    by_cases hsame : evaluateLevel u .normal t = .normal
    · rw [hsame, hsame]
    · exact evaluateLevel_of_enters (climb_enters hsame)
  · exact evaluateLevel_of_enters (evaluateLevel_enters hstart h)

end

/-! ## Readings -/

/-- What `refresh` has of an observation for the loop: the utilization and the
time. -/
abbrev Reading (F : Type) [Double F] := F × UInt64

namespace HysteresisState

/-- Classify and update (runtime.cpp:250). -/
def read (t : Thresholds F) (h : HysteresisState F) (r : Reading F) : HysteresisState F :=
  h.update (evaluateLevel r.1 h.current t) r.2

/-- The machine after a list of readings. -/
def readAll (t : Thresholds F) (h : HysteresisState F) (readings : List (Reading F)) :
    HysteresisState F :=
  readings.foldl (read t) h

/-- The updates that readings turn into. -/
def updatesOf (t : Thresholds F) (h : HysteresisState F) : List (Reading F) → List Update
  | [] => []
  | r :: readings => (evaluateLevel r.1 h.current t, r.2) :: updatesOf t (h.read t r) readings

/-- The levels resolved, one after each reading. -/
def levelsOf (t : Thresholds F) (h : HysteresisState F) : List (Reading F) → List PressureLevel
  | [] => []
  | r :: readings => (h.read t r).current :: levelsOf t (h.read t r) readings

variable {t : Thresholds F} {h : HysteresisState F}

theorem readAll_eq_feed (readings : List (Reading F)) :
    h.readAll t readings = h.feed (h.updatesOf t readings) := by
  induction readings generalizing h with
  | nil => rfl
  | cons r readings ih => exact ih

@[simp] theorem length_updatesOf (readings : List (Reading F)) :
    (h.updatesOf t readings).length = readings.length := by
  induction readings generalizing h with
  | nil => rfl
  | cons r readings ih => exact congrArg (· + 1) ih

theorem updatesOf_take (readings : List (Reading F)) (n : Nat) :
    (h.updatesOf t readings).take n = h.updatesOf t (readings.take n) := by
  induction readings generalizing h n with
  | nil => rw [List.take_nil]; exact List.take_nil
  | cons r readings ih =>
    cases n with
    | zero => rfl
    | succ n => exact congrArg (_ :: ·) (ih n)

/-- The update that a reading turns into. -/
theorem getElem?_updatesOf (readings : List (Reading F)) (n : Nat) :
    (h.updatesOf t readings)[n]? = readings[n]?.map fun r =>
      (evaluateLevel r.1 (h.readAll t (readings.take n)).current t, r.2) := by
  induction readings generalizing h n with
  | nil => rfl
  | cons r readings ih =>
    cases n with
    | zero => rfl
    | succ n => exact ih n

/-- The loop resolves no level but those the classifier knows. -/
theorem readAll_ne_unknown (hknown : h.current ≠ .unknown) (readings : List (Reading F)) :
    (h.readAll t readings).current ≠ .unknown := by
  induction readings generalizing h with
  | nil => exact hknown
  | cons r readings ih =>
    exact ih (update_level_ne_unknown hknown (evaluateLevel_ne_unknown r.1 h.current t))

end HysteresisState

/-- An observed domain goes through one turn of the loop. -/
theorem observe_hysteresis (pol : PressurePolicy F) (budget : Option Budget) (nowMs : UInt64)
    (st : DomainRuntimeState F) (obs : DomainObservation F) :
    (st.observe pol budget nowMs obs).hysteresis = st.hysteresis.read pol.thresholds
      (utilizationFor obs.committed (usableFor budget obs), nowMs) := rfl

/-! ## Changes of level -/

theorem confirmations_le_length (cap : UInt32) (n : Nat) : confirmations cap n ≤ n := by
  unfold confirmations
  split_ifs
  · exact Nat.mod_le _ _
  · exact Nat.min_le_left _ _

/-- **What a change of level goes back to**: without an emergency, as many updates
as the dwell had the new raw level, while the level was the old one. -/
theorem feed_change {cfg : HysteresisConfig F} {updates : List Update} {u : Update}
    (hknown : u.1 ≠ .unknown)
    (hne : u.1 ≠ ((HysteresisState.new cfg).feed updates).level)
    (hconfirms : ((HysteresisState.new cfg).feed updates).confirms u.1 u.2) :
    cfg.minDwellObservations.toNat ≤ updates.length + 1 ∧
      ∀ n, updates.length + 1 - cfg.minDwellObservations.toNat ≤ n → n ≤ updates.length →
        ((HysteresisState.new cfg).feed (updates.take n)).level
            = ((HysteresisState.new cfg).feed updates).level ∧
          ∀ v ∈ (updates ++ [u])[n]?, v.1 = u.1 := by
  have hdue := ((OnRow.feed cfg updates).confirms_iff hknown hne u.2).mp hconfirms
  rw [HysteresisState.feed_cfg] at hdue
  obtain ⟨front, hfront⟩ : rowOf (updates ++ [u]) <:+ updates ++ [u] := LastRow.lastRow_suffix _
  have hlen : front.length + (rowOf (updates ++ [u])).length = updates.length + 1 := by
    rw [← List.length_append, hfront, List.length_append, List.length_singleton]
  have hmany : cfg.minDwellObservations.toNat ≤ (rowOf (updates ++ [u])).length :=
    Nat.le_trans hdue.1 (confirmations_le_length _ _)
  refine ⟨by omega, ?_⟩
  intro n hlow hhigh
  -- from the `n`-th on, the updates are in the row
  have hrow : ∀ v ∈ (updates ++ [u]).drop n, v.1 = u.1 := by
    intro v hv
    have hin : v ∈ (updates ++ [u]).drop front.length :=
      (List.drop_suffix_drop_left _ (by omega)).subset hv
    rw [← hfront, List.drop_left] at hin
    exact LastRow.key_of_mem_concat hin
  constructor
  · have hrest : ∀ v ∈ updates.drop n, v.1 = u.1 := by
      intro v hv
      refine hrow v ?_
      rw [List.drop_append_of_le_length hhigh]
      exact List.mem_append_left _ hv
    have hsplit : ((HysteresisState.new cfg).feed (updates.take n)).feed (updates.drop n)
        = (HysteresisState.new cfg).feed updates := by
      rw [← HysteresisState.feed_append, List.take_append_drop]
    have hlevel := feed_level_of_ne hrest
      (h := (HysteresisState.new cfg).feed (updates.take n)) (by rw [hsplit]; exact hne.symm)
    rw [hlevel, hsplit]
  · intro v hv
    refine hrow v (List.mem_of_getElem? (i := 0) ?_)
    rw [List.getElem?_drop, Nat.add_zero]
    exact hv

/-- The level resolved after `n` of the readings fed to a fresh machine. -/
def levelAfter (t : Thresholds F) (cfg : HysteresisConfig F) (readings : List (Reading F))
    (n : Nat) : PressureLevel :=
  ((HysteresisState.new cfg).readAll t (readings.take n)).current

theorem levelAfter_ne_unknown (t : Thresholds F) (cfg : HysteresisConfig F)
    (readings : List (Reading F)) (n : Nat) : levelAfter t cfg readings n ≠ .unknown :=
  HysteresisState.readAll_ne_unknown
    (show (HysteresisState.new cfg).current ≠ .unknown from PressureLevel.noConfusion) _

/-- A change of level goes with a reading, whose raw level it adopts, in an
emergency or confirmed. -/
theorem levelAfter_succ {t : Thresholds F} {cfg : HysteresisConfig F}
    {readings : List (Reading F)} {n : Nat}
    (hchange : levelAfter t cfg readings (n + 1) ≠ levelAfter t cfg readings n) :
    ∃ r, readings[n]? = some r ∧
      levelAfter t cfg readings (n + 1) = evaluateLevel r.1 (levelAfter t cfg readings n) t ∧
      (((HysteresisState.new cfg).readAll t (readings.take n)).emergency
          (levelAfter t cfg readings (n + 1)) ∨
        ((HysteresisState.new cfg).readAll t (readings.take n)).confirms
          (levelAfter t cfg readings (n + 1)) r.2) := by
  cases hr : readings[n]? with
  -- beyond the last reading nothing changes
  | none =>
    have hsame : levelAfter t cfg readings (n + 1) = levelAfter t cfg readings n := by
      rw [levelAfter, List.take_add_one, hr, Option.toList_none, List.append_nil]
      rfl
    exact absurd hsame hchange
  | some r =>
    have hstep : levelAfter t cfg readings (n + 1)
        = (((HysteresisState.new cfg).readAll t (readings.take n)).update
            (evaluateLevel r.1 (levelAfter t cfg readings n) t) r.2).level := by
      rw [levelAfter, List.take_add_one, hr, Option.toList_some, HysteresisState.readAll,
        List.foldl_concat]
      rfl
    rw [HysteresisState.update_level] at hstep
    split_ifs at hstep with hadopt
    · refine ⟨r, rfl, hstep, ?_⟩
      rw [hstep] at hchange ⊢
      exact hadopt.resolve_left hchange
    · exact absurd hstep hchange

/-- **Every level change is justified**: the readings fed to a fresh machine move
the level either to `Exhausted` in an emergency, or after as many readings in a
row as the dwell that were all classified as the new level while the level was
the old one. So these were all at or above its enter threshold when the level
rises, and at or below the old level's exit threshold when it falls, which it
does by one; and the previous change is as many readings ago. -/
theorem level_change_justified (t : Thresholds F) (cfg : HysteresisConfig F)
    (readings : List (Reading F)) (n : Nat)
    (hchange : levelAfter t cfg readings (n + 1) ≠ levelAfter t cfg readings n) :
    (levelAfter t cfg readings (n + 1) = .exhausted ∧
        severityRank (levelAfter t cfg readings n)
          < severityRank (levelAfter t cfg readings (n + 1)) ∧
        cfg.immediateEmergencyEscalation = true) ∨
      (cfg.minDwellObservations.toNat ≤ n + 1 ∧
        (∀ i r, n + 1 - cfg.minDwellObservations.toNat ≤ i → i ≤ n → readings[i]? = some r →
          levelAfter t cfg readings i = levelAfter t cfg readings n ∧
          evaluateLevel r.1 (levelAfter t cfg readings i) t = levelAfter t cfg readings (n + 1) ∧
          (severityRank (levelAfter t cfg readings n)
              < severityRank (levelAfter t cfg readings (n + 1)) →
            ∃ x ∈ t.enter (levelAfter t cfg readings (n + 1)), x ≤ r.1) ∧
          (severityRank (levelAfter t cfg readings (n + 1))
              < severityRank (levelAfter t cfg readings n) →
            severityRank (levelAfter t cfg readings (n + 1)) + 1
                = severityRank (levelAfter t cfg readings n) ∧
              ∃ x ∈ t.exit (levelAfter t cfg readings n), r.1 ≤ x)) ∧
        ∀ m < n, levelAfter t cfg readings (m + 1) ≠ levelAfter t cfg readings m →
          m + cfg.minDwellObservations.toNat ≤ n) := by
  obtain ⟨r, hr, hraw, hadopt⟩ := levelAfter_succ hchange
  rcases hadopt with ⟨hexhausted, himmediate, hescalating⟩ | hconfirms
  · refine Or.inl ⟨hexhausted, hescalating, ?_⟩
    rwa [HysteresisState.readAll_eq_feed, HysteresisState.feed_cfg] at himmediate
  right
  have hn : n ≤ readings.length := Nat.le_of_lt (List.getElem?_eq_some_iff.mp hr).1
  -- the readings before as updates
  have hlevel : ∀ i ≤ n, ((HysteresisState.new cfg).feed
      (((HysteresisState.new cfg).updatesOf t (readings.take n)).take i)).level
        = levelAfter t cfg readings i := by
    intro i hi
    rw [HysteresisState.updatesOf_take, List.take_take, Nat.min_eq_left hi,
      ← HysteresisState.readAll_eq_feed]
    rfl
  have hlen : ((HysteresisState.new cfg).updatesOf t (readings.take n)).length = n := by
    rw [HysteresisState.length_updatesOf, List.length_take, Nat.min_eq_left hn]
  have hnow := hlevel n (Nat.le_refl n)
  rw [List.take_of_length_le (Nat.le_of_eq hlen)] at hnow
  rw [HysteresisState.readAll_eq_feed] at hconfirms
  obtain ⟨hmany, hall⟩ := feed_change (u := (levelAfter t cfg readings (n + 1), r.2))
    (levelAfter_ne_unknown t cfg readings (n + 1)) (by rwa [hnow]) hconfirms
  rw [hlen] at hmany hall
  have hback : ∀ i, n + 1 - cfg.minDwellObservations.toNat ≤ i → i ≤ n →
      levelAfter t cfg readings i = levelAfter t cfg readings n := by
    intro i hlow hhigh
    rw [← hlevel i hhigh, (hall i hlow hhigh).1, hnow]
  refine ⟨hmany, fun i q hlow hhigh hq => ?_, fun m hm hother => ?_⟩
  · have hclass : evaluateLevel q.1 (levelAfter t cfg readings i) t
        = levelAfter t cfg readings (n + 1) := by
      rcases Nat.lt_or_eq_of_le hhigh with hlt | rfl
      · -- the update the reading turned into is in the row
        refine (hall i hlow hhigh).2 (evaluateLevel q.1 (levelAfter t cfg readings i) t, q.2) ?_
        rw [List.getElem?_append_left (by rwa [hlen]), HysteresisState.getElem?_updatesOf,
          List.getElem?_take_of_lt hlt, hq, List.take_take, Nat.min_eq_left hhigh]
        exact rfl
      · obtain rfl : r = q := Option.some.inj (hr.symm.trans hq)
        exact hraw.symm
    have hlev := hback i hlow hhigh
    refine ⟨hlev, hclass, fun hrises => ?_, fun hfalls => ?_⟩
    · rw [← hclass] at hrises ⊢
      rw [← hlev] at hrises
      exact evaluateLevel_enters (levelAfter_ne_unknown t cfg readings i) hrises
    · rw [← hclass, ← hlev] at hfalls ⊢
      exact evaluateLevel_exits hfalls
  · by_contra hlate
    rw [hback (m + 1) (by omega) (by omega), hback m (by omega) (by omega)] at hother
    exact hother rfl

/-- Two readings at 90 %. -/
def steadyReadings : List (Reading ℚ) := [(0.9, 1000), (0.9, 2000)]

/-- Under the default policy both readings were classified as `High` at the level
they found. -/
theorem level_change_justified_high :
    levelAfter defaultPolicy.thresholds defaultPolicy.hysteresis steadyReadings 2 = .high ∧
      ∀ i r, i ≤ 1 → steadyReadings[i]? = some r →
        evaluateLevel r.1
            (levelAfter defaultPolicy.thresholds defaultPolicy.hysteresis steadyReadings i)
            defaultPolicy.thresholds
          = levelAfter defaultPolicy.thresholds defaultPolicy.hysteresis steadyReadings 2 := by
  refine ⟨by decide +kernel, ?_⟩
  intro i r hi hr
  rcases level_change_justified defaultPolicy.thresholds defaultPolicy.hysteresis steadyReadings 1
    (by decide +kernel) with ⟨hexhausted, -⟩ | ⟨-, hall, -⟩
  · exact absurd hexhausted (by decide +kernel)
  · exact (hall i r (Nat.zero_le i) hi hr).2.1

/-! ## Constant utilization -/

/-- How often consecutive levels differ. -/
def changes : List PressureLevel → Nat
  | a :: b :: levels => (if a = b then 0 else 1) + changes (b :: levels)
  | _ => 0

theorem changes_eq_zero {a : PressureLevel} {levels : List PressureLevel}
    (h : ∀ b ∈ levels, b = a) : changes (a :: levels) = 0 := by
  induction levels with
  | nil => rfl
  | cons b levels ih =>
    obtain rfl : b = a := h b List.mem_cons_self
    rw [changes, if_pos rfl, ih fun c hc => h c (List.mem_cons_of_mem b hc)]

section

variable {t : Thresholds F} {u : F} {times : List UInt64} {h : HysteresisState F}

/-- A reading leaves the level or takes it where the classifier points. -/
theorem current_read (t : Thresholds F) (h : HysteresisState F) (r : Reading F) :
    (h.read t r).current = h.current ∨ (h.read t r).current = evaluateLevel r.1 h.current t := by
  have hlevel := HysteresisState.update_level h (evaluateLevel r.1 h.current t) r.2
  split_ifs at hlevel
  · exact Or.inr hlevel
  · exact Or.inl hlevel

/-- Where the classifier stays, so does the level. -/
theorem settled_run (hstays : evaluateLevel u h.current t = h.current) :
    ∀ level ∈ h.levelsOf t (times.map fun now => (u, now)), level = h.current := by
  induction times generalizing h with
  | nil => exact fun level hl => by cases hl
  | cons now times ih =>
    have hsame : (h.read t (u, now)).current = h.current := by
      rcases current_read t h (u, now) with hkeep | hmove
      · exact hkeep
      · exact hmove.trans hstays
    intro level hl
    rcases List.mem_cons.mp hl with rfl | hrest
    · exact hsame
    · rw [← hsame]
      exact ih (by rwa [hsame]) level hrest

/-- The levels of a constant utilization. -/
def levelsFrom (t : Thresholds F) (u : F) (h : HysteresisState F) (times : List UInt64) :
    List PressureLevel :=
  h.current :: h.levelsOf t (times.map fun now => (u, now))

theorem levelsFrom_cons (now : UInt64) :
    levelsFrom t u h (now :: times) = h.current :: levelsFrom t u (h.read t (u, now)) times := rfl

/-- One more level in front that is the same. -/
theorem changes_levelsFrom_same {now : UInt64}
    (hsame : (h.read t (u, now)).current = h.current) :
    changes (levelsFrom t u h (now :: times))
      = changes (levelsFrom t u (h.read t (u, now)) times) := by
  rw [levelsFrom_cons, levelsFrom, changes, if_pos hsame.symm, Nat.zero_add]

/-- A level that the classifier does not raise falls, by one at a time, or
stays. -/
theorem falling_run
    (hfalls : severityRank (evaluateLevel u h.current t) ≤ severityRank h.current) :
    (levelsFrom t u h times).IsChain (fun a b => severityRank b ≤ severityRank a) ∧
      changes (levelsFrom t u h times) ≤ severityFloor h.current := by
  induction times generalizing h with
  | nil => exact ⟨List.isChain_singleton _, Nat.zero_le _⟩
  | cons now times ih =>
    rw [levelsFrom_cons]
    by_cases hsame : (h.read t (u, now)).current = h.current
    · obtain ⟨hchain, hfew⟩ := ih (by rwa [hsame])
      refine ⟨List.isChain_cons_cons.mpr ⟨by rw [hsame], hchain⟩, ?_⟩
      rw [← levelsFrom_cons, changes_levelsFrom_same hsame, ← hsame]
      exact hfew
    -- a fall takes the level down by one, and `severityFloor` with it
    · have hmove : (h.read t (u, now)).current = evaluateLevel u h.current t :=
        (current_read t h (u, now)).resolve_left hsame
      rw [hmove] at hsame
      have hlt : severityRank (evaluateLevel u h.current t) < severityRank h.current :=
        lt_of_le_of_ne hfalls fun heq => hsame (severityRank_inj heq)
      obtain ⟨hchain, hfew⟩ := ih (h := h.read t (u, now)) (by
        rw [hmove]
        exact evaluateLevel_falls u h.current t)
      refine ⟨List.isChain_cons_cons.mpr ⟨by rw [hmove]; exact hfalls, hchain⟩, ?_⟩
      have hstep := (evaluateLevel_exits hlt).1
      have hpos := severityRank_nonneg (evaluateLevel_ne_unknown u h.current t)
      rw [hmove] at hfew
      rw [levelsFrom, changes, hmove, if_neg (Ne.symm hsame)]
      rw [levelsFrom, hmove] at hfew
      unfold severityFloor at hfew ⊢
      omega

/-- A level that the classifier raises is raised once. -/
theorem rising_run
    (hrises : severityRank h.current ≤ severityRank (evaluateLevel u h.current t))
    (htop : evaluateLevel u (evaluateLevel u h.current t) t = evaluateLevel u h.current t) :
    (levelsFrom t u h times).IsChain (fun a b => severityRank a ≤ severityRank b) ∧
      changes (levelsFrom t u h times) ≤ 1 := by
  induction times generalizing h with
  | nil => exact ⟨List.isChain_singleton _, Nat.zero_le _⟩
  | cons now times ih =>
    rw [levelsFrom_cons]
    by_cases hsame : (h.read t (u, now)).current = h.current
    · obtain ⟨hchain, hfew⟩ := ih (by rwa [hsame]) (by rwa [hsame])
      refine ⟨List.isChain_cons_cons.mpr ⟨by rw [hsame], hchain⟩, ?_⟩
      rw [← levelsFrom_cons, changes_levelsFrom_same hsame]
      exact hfew
    · -- at the top the level stays
      have hmove : (h.read t (u, now)).current = evaluateLevel u h.current t :=
        (current_read t h (u, now)).resolve_left hsame
      have hstays : evaluateLevel u (h.read t (u, now)).current t
          = (h.read t (u, now)).current := by
        rw [hmove, htop]
      obtain ⟨hchain, -⟩ := ih (h := h.read t (u, now)) (by rw [hstays]) (by rw [hstays, hstays])
      refine ⟨List.isChain_cons_cons.mpr ⟨by rw [hmove]; exact hrises, hchain⟩, ?_⟩
      rw [levelsFrom, changes, changes_eq_zero (settled_run hstays)]
      split_ifs <;> omega

/-- **A constant utilization settles**: whatever the machine and the times, the levels
resolved from then on all rise or all fall, change at most four times, and stay where the
classifier stays. Four is the number of levels above the lowest; a machine that has to go
all the way takes them one at a time on the way down. -/
theorem constant_settles (t : Thresholds F) (u : F) (h : HysteresisState F) (times : List UInt64) :
    ((levelsFrom t u h times).IsChain (fun a b => severityRank a ≤ severityRank b) ∨
        (levelsFrom t u h times).IsChain (fun a b => severityRank b ≤ severityRank a)) ∧
      changes (levelsFrom t u h times) ≤ 4 ∧
      ∀ before level after, levelsFrom t u h times = before ++ level :: after →
        evaluateLevel u level t = level → ∀ later ∈ after, later = level := by
  refine ⟨?_, ?_, ?_⟩
  -- what the first reading is classified as decides which way it goes
  · by_cases hrises : severityRank h.current < severityRank (evaluateLevel u h.current t)
    · exact Or.inl (rising_run (Int.le_of_lt hrises) (evaluateLevel_rises hrises)).1
    · exact Or.inr (falling_run (Int.not_lt.mp hrises)).1
  · by_cases hrises : severityRank h.current < severityRank (evaluateLevel u h.current t)
    · have hfew : changes (levelsFrom t u h times) ≤ 1 :=
        (rising_run (Int.le_of_lt hrises) (evaluateLevel_rises hrises)).2
      omega
    · refine Nat.le_trans (falling_run (Int.not_lt.mp hrises)).2 ?_
      cases h.current <;> decide
  -- from a level where the classifier stays, the rest of the run is settled
  · intro before level after heq hstays
    induction times generalizing h before with
    | nil =>
      cases before with
      | nil =>
        obtain ⟨-, rfl⟩ := List.cons.inj heq
        exact fun later hl => by cases hl
      | cons b before => simp [levelsFrom, HysteresisState.levelsOf] at heq
    | cons now times ih =>
      cases before with
      | nil =>
        obtain ⟨rfl, rfl⟩ := List.cons.inj heq
        exact settled_run hstays
      | cons b before =>
        rw [levelsFrom_cons] at heq
        exact ih _ before (List.cons.inj heq).2

end

/-! ## Raw levels that vary above the current one -/

/-- A debounce without delays whose cap lets the counter reach the dwell. -/
structure Undelayed (cfg : HysteresisConfig F) : Prop where
  dwell : 0 < cfg.minDwellObservations.toNat
  cap : cfg.minDwellObservations ≤ cfg.maxDebounceObservations
  dwellMs : cfg.minDwellDurationMs = 0.0
  escalationMs : cfg.escalationDelayMs = 0.0
  recoveryMs : cfg.recoveryDelayMs = 0.0

/-- What is true of an undelayed machine: a row as long as the dwell has been committed, so
what is pending is a shorter one. -/
structure Prompt (updates : List Update) (h : HysteresisState F) : Prop extends
    OnRow updates h where
  undelayed : Undelayed h.cfg
  short : h.pending ≠ .unknown → (rowOf updates).length < h.cfg.minDwellObservations.toNat

namespace Prompt

variable {updates : List Update} {h : HysteresisState F} {raw : PressureLevel}

/-- No row of a level other than the current one is longer than the dwell. -/
theorem length_row_le (hprompt : Prompt updates h) (hraw : raw ≠ .unknown) (hne : raw ≠ h.level)
    (nowMs : UInt64) :
    (rowOf (updates ++ [(raw, nowMs)])).length ≤ h.cfg.minDwellObservations.toNat := by
  rw [rowOf, LastRow.lastRow_concat]
  by_cases hp : h.pending = raw
  · have hlen : (LastRow.extend Prod.fst (rowOf updates) (raw, nowMs)).length
        ≤ (rowOf updates).length + 1 := LastRow.length_extend_le ..
    exact Nat.le_trans hlen (hprompt.short (hp ▸ hraw))
  · rw [hprompt.extend_of_not_pending hne hp, List.length_singleton]
    exact hprompt.undelayed.dwell

/-- **An undelayed machine commits** exactly when the row is as long as the
dwell. -/
theorem confirms_iff [OrderedTimes F] (hprompt : Prompt updates h) (hraw : raw ≠ .unknown)
    (hne : raw ≠ h.level) (nowMs : UInt64) :
    h.confirms raw nowMs
      ↔ h.cfg.minDwellObservations.toNat ≤ (rowOf (updates ++ [(raw, nowMs)])).length := by
  have hle := hprompt.length_row_le hraw hne nowMs
  have hcap := UInt32.le_iff_toNat_le.mp hprompt.undelayed.cap
  have hmax := h.cfg.maxDebounceObservations.toNat_lt
  -- a row no longer than the dwell neither wraps nor meets the cap
  have hcount : confirmations h.cfg.maxDebounceObservations
      (rowOf (updates ++ [(raw, nowMs)])).length = (rowOf (updates ++ [(raw, nowMs)])).length := by
    unfold confirmations
    split_ifs
    · exact Nat.mod_eq_of_lt (by omega)
    · exact Nat.min_eq_left (by omega)
  have hwait : h.wait raw = 0.0 := by
    rw [HysteresisState.wait, hprompt.undelayed.escalationMs,
      hprompt.undelayed.recoveryMs, ite_self]
  rw [hprompt.toOnRow.confirms_iff hraw hne nowMs, RowDue, hcount, hprompt.undelayed.dwellMs, hwait]
  -- no time elapsed is negative, so it reaches a delay of zero
  refine and_iff_left ?_
  intro first _
  have hzero : (0.0 : F) ≤ Double.ofUInt64 (nowMs - first.2) :=
    OrderedTimes.le_trans _ _ _ OrderedTimes.zero_le
      (OrderedTimes.ofInt_le _ _ (Int.natCast_nonneg _))
  exact ⟨hzero, hzero⟩

/-- **One update** keeps an undelayed machine prompt. -/
theorem update [OrderedTimes F] (hprompt : Prompt updates h) (raw : PressureLevel)
    (nowMs : UInt64) : Prompt (updates ++ [(raw, nowMs)]) (h.update raw nowMs) where
  toOnRow := hprompt.toOnRow.update raw nowMs
  undelayed := by
    rw [HysteresisState.update_cfg]
    exact hprompt.undelayed
  short := by
    rw [HysteresisState.update_cfg]
    unfold HysteresisState.update
    split_ifs with hcur hem
    · exact fun hopen => absurd rfl hopen
    · exact fun hopen => absurd rfl hopen
    · show (if h.confirms raw nowMs then _ else _ : HysteresisState F).pending ≠ _ → _
      split_ifs with hdue
      · exact fun hopen => absurd rfl hopen
      · rw [HysteresisState.window_pending]
        exact fun hraw => Nat.not_le.mp (mt (hprompt.confirms_iff hraw hcur nowMs).mpr hdue)

/-- Every undelayed machine is prompt. -/
theorem feed [OrderedTimes F] {cfg : HysteresisConfig F} (hundelayed : Undelayed cfg)
    (updates : List Update) : Prompt updates ((HysteresisState.new cfg).feed updates) := by
  induction updates using List.reverseRecOn with
  | nil => exact ⟨.new cfg, hundelayed, fun hopen => absurd rfl hopen⟩
  | append_singleton updates u ih =>
    rw [HysteresisState.feed_concat]
    exact ih.update u.1 u.2

end Prompt

/-- Above a level the machine stays above it while every raw level is. -/
theorem feed_above {level : PressureLevel} {updates : List Update}
    (habove : ∀ u ∈ updates, severityRank level < severityRank u.1) {h : HysteresisState F}
    (hlevel : severityRank level < severityRank h.level) :
    severityRank level < severityRank (h.feed updates).level := by
  induction updates generalizing h with
  | nil => exact hlevel
  | cons u updates ih =>
    refine ih (fun v hv => habove v (List.mem_cons_of_mem u hv)) ?_
    rw [HysteresisState.update_level]
    split_ifs
    · exact habove u List.mem_cons_self
    · exact hlevel

/-- The update makes the machine leave a level below its raw level: an emergency,
or the end of a row as long as the dwell. -/
def Leaves (cfg : HysteresisConfig F) (before : List Update) (u : Update) : Prop :=
  (u.1 = .exhausted ∧ cfg.immediateEmergencyEscalation = true) ∨
    cfg.minDwellObservations.toNat ≤ (rowOf (before ++ [u])).length

theorem leaves_iff [OrderedTimes F] {updates : List Update} {h : HysteresisState F}
    (hprompt : Prompt updates h) {u : Update} (habove : severityRank h.level < severityRank u.1) :
    Leaves h.cfg updates u ↔ h.emergency u.1 ∨ h.confirms u.1 u.2 := by
  have hne : u.1 ≠ h.level := fun heq => by rw [heq] at habove; exact lt_irrefl _ habove
  have hknown : u.1 ≠ .unknown := by
    intro heq
    rw [heq] at habove
    cases hl : h.level <;> rw [hl] at habove <;> exact absurd habove (by decide)
  rw [hprompt.confirms_iff hknown hne u.2]
  refine or_congr_left ⟨fun hex => ⟨hex.1, hex.2, habove⟩, fun hem => ⟨hem.1, hem.2.1⟩⟩

/-- Under updates all above its level, an undelayed machine leaves the level
exactly when one of them makes it. -/
theorem feed_leaves_iff [OrderedTimes F] {us updates : List Update} {h : HysteresisState F}
    (hprompt : Prompt updates h)
    (habove : ∀ u ∈ us, severityRank h.level < severityRank u.1) :
    severityRank h.level < severityRank (h.feed us).level ↔
      ∃ before u after, us = before ++ u :: after ∧ Leaves h.cfg (updates ++ before) u := by
  induction us generalizing updates h with
  | nil =>
    refine iff_of_false (lt_irrefl _) ?_
    rintro ⟨before, u, after, heq, -⟩
    simp at heq
  | cons u us ih =>
    have hu := habove u List.mem_cons_self
    have hrest : ∀ v ∈ us, severityRank h.level < severityRank v.1 := fun v hv =>
      habove v (List.mem_cons_of_mem u hv)
    have hleaves := leaves_iff hprompt hu
    have hlevel := HysteresisState.update_level h u.1 u.2
    -- the machine leaves with this update, or its level is the same for the rest
    by_cases hadopt : h.emergency u.1 ∨ h.confirms u.1 u.2
    · rw [if_pos (Or.inr hadopt)] at hlevel
      refine iff_of_true (feed_above hrest (by rw [hlevel]; exact hu)) ⟨[], u, us, rfl, ?_⟩
      rw [List.append_nil]
      exact hleaves.mpr hadopt
    · rw [if_neg] at hlevel
      · have hsame := ih (hprompt.update u.1 u.2) (by rwa [hlevel])
        rw [hlevel, HysteresisState.update_cfg] at hsame
        have hstays : ¬ Leaves h.cfg (updates ++ []) u := by
          rw [List.append_nil]
          exact mt hleaves.mp hadopt
        rw [HysteresisState.feed_cons, hsame, LastRow.exists_split_cons, or_iff_right hstays]
        simp only [List.append_assoc, List.singleton_append]
      · rintro (hcur | hadopt')
        · rw [hcur] at hu
          exact lt_irrefl _ hu
        · exact hadopt hadopt'

/-- **What it takes to leave a level** when every raw level is above it, without
delays and with a cap that lets the counter reach the dwell: an emergency, or a
row of one raw level as long as the dwell. Raw levels that vary start new rows. -/
theorem fluctuation_iff [OrderedTimes F] {p : PressurePolicy F} (hp : validatePolicy p = none)
    (hdwellMs : p.hysteresis.minDwellDurationMs = 0.0)
    (hescalationMs : p.hysteresis.escalationDelayMs = 0.0)
    (hrecoveryMs : p.hysteresis.recoveryDelayMs = 0.0)
    (hcap : p.hysteresis.minDwellObservations ≤ p.hysteresis.maxDebounceObservations)
    (updates : List Update) (readings : List (Reading F))
    (habove : ∀ u ∈
        ((HysteresisState.new p.hysteresis).feed updates).updatesOf p.thresholds readings,
      severityRank ((HysteresisState.new p.hysteresis).feed updates).current < severityRank u.1) :
    severityRank ((HysteresisState.new p.hysteresis).feed updates).current
        < severityRank (((HysteresisState.new p.hysteresis).feed updates).readAll p.thresholds
          readings).current ↔
      ∃ before u after,
        ((HysteresisState.new p.hysteresis).feed updates).updatesOf p.thresholds readings
          = before ++ u :: after ∧
        ((u.1 = .exhausted ∧ p.hysteresis.immediateEmergencyEscalation = true) ∨
          p.hysteresis.minDwellObservations.toNat
            ≤ (rowOf (updates ++ before ++ [u])).length) := by
  have hprompt := Prompt.feed
    ⟨minDwell_pos hp, hcap, hdwellMs, hescalationMs, hrecoveryMs⟩ updates
  have hiff := feed_leaves_iff hprompt habove
  rw [HysteresisState.feed_cfg, ← HysteresisState.readAll_eq_feed] at hiff
  exact hiff

/-- Two readings at 90 % leave `Normal` under the default policy. -/
theorem fluctuation_steady :
    severityRank (HysteresisState.new (defaultPolicy : PressurePolicy ℚ).hysteresis).current
      < severityRank ((HysteresisState.new (defaultPolicy : PressurePolicy ℚ).hysteresis).readAll
          defaultPolicy.thresholds steadyReadings).current :=
  (fluctuation_iff validatePolicy_defaultPolicy rfl rfl rfl (by decide) [] steadyReadings
    (by decide +kernel)).mpr
    ⟨[(.high, 1000)], (.high, 2000), [], by decide +kernel, Or.inr (by decide)⟩

/-- Readings at 90 % and 96 %. -/
def varyingReadings : List (Reading ℚ) := [(0.9, 1000), (0.96, 2000)]

/-- **Not always**: as many readings as the dwell, all classified above `Normal`,
but one `High` and one `Critical`, leave the machine at `Normal`. -/
theorem fluctuation_masks :
    validatePolicy (defaultPolicy : PressurePolicy ℚ) = none ∧
      (defaultPolicy : PressurePolicy ℚ).hysteresis.minDwellDurationMs = 0.0 ∧
      (defaultPolicy : PressurePolicy ℚ).hysteresis.escalationDelayMs = 0.0 ∧
      (defaultPolicy : PressurePolicy ℚ).hysteresis.recoveryDelayMs = 0.0 ∧
      (defaultPolicy : PressurePolicy ℚ).hysteresis.minDwellObservations
        ≤ (defaultPolicy : PressurePolicy ℚ).hysteresis.maxDebounceObservations ∧
      varyingReadings.length
        = (defaultPolicy : PressurePolicy ℚ).hysteresis.minDwellObservations.toNat ∧
      (HysteresisState.new defaultPolicy.hysteresis).updatesOf defaultPolicy.thresholds
          varyingReadings = [(.high, 1000), (.critical, 2000)] ∧
      ¬ severityRank .normal < severityRank ((HysteresisState.new defaultPolicy.hysteresis).readAll
          defaultPolicy.thresholds varyingReadings).current := by
  decide +kernel

end MemoryPressure
