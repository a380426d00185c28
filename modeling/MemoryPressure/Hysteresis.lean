import MemoryPressure.Policy

/-!
# Threshold classification and debounce (`hysteresis.h`, `core.cpp`)

`evaluateLevel` is the raw, threshold-band level of a utilization given the
level now resolved; `HysteresisState.update` turns raw levels into a sticky
resolved level. `update` is split where the source branches:

- `emergency`: the immediate step to `exhausted`;
- `window`: the pending transition after counting this observation;
- `due`: the commit test (`obs_ok && time_ok && delay_ok`);
- `commit`, `settle`: adopt the raw level / confirm the current one.

`update_level` is the one fact later modules use about the resolved level:
which branches adopt the raw level, and that all others keep the old one. Times are
unsigned and the elapsed time of a window is a difference modulo `2 ^ 64`, as in the
source; the count of observations is 32 bits wide and wraps around too.

**Machines that cannot be told apart.** The start of a window is kept after the window
has closed, and nothing reads it then. `Similar` disregards it, is kept by every update
(`Similar.update`), and makes a machine at rest as good as a fresh one
(`AtRest.similar_new`). This is what lets a domain be dropped and taken up again without a
trace, and two runs be compared that differ in what they no longer remember.
-/

namespace MemoryPressure

variable {F : Type} [Double F]

/-- The enter-threshold climb shared by a fresh machine and a band's upper side
(core.cpp:252): the highest level entered, `below` if none is. -/
def climb (utilization : F) (t : Thresholds F) (below : PressureLevel) : PressureLevel :=
  if utilization ≥ t.exhaustedEnter then .exhausted
  else if utilization ≥ t.criticalEnter then .critical
  else if utilization ≥ t.highEnter then .high
  else if utilization ≥ t.elevatedEnter then .elevated
  else below

/-- `evaluate_level` (core.cpp:249). -/
def evaluateLevel (utilization : F) (current : PressureLevel) (t : Thresholds F) :
    PressureLevel :=
  match current with
  | .unknown | .normal => climb utilization t .normal
  | .elevated =>
    climb utilization t (if utilization ≤ t.normalExit then .normal else .elevated)
  | .high =>
    if utilization ≥ t.exhaustedEnter then .exhausted
    else if utilization ≥ t.criticalEnter then .critical
    else if utilization ≥ t.highEnter then .high
    else if utilization ≤ t.highExit then .elevated
    else .high
  | .critical =>
    if utilization ≥ t.exhaustedEnter then .exhausted
    else if utilization ≥ t.criticalEnter then .critical
    else if utilization ≤ t.criticalExit then .high
    else .critical
  | .exhausted =>
    if utilization ≥ t.exhaustedEnter then .exhausted
    else if utilization ≤ t.exhaustedExit then .critical
    else .exhausted

theorem climb_ne_unknown {u : F} {t : Thresholds F} {below : PressureLevel}
    (h : below ≠ .unknown) : climb u t below ≠ .unknown := by
  unfold climb
  split_ifs <;> first | exact h | decide

/-- The classifier never answers "no evidence". -/
theorem evaluateLevel_ne_unknown (u : F) (cur : PressureLevel) (t : Thresholds F) :
    evaluateLevel u cur t ≠ .unknown := by
  cases cur with
  | normal | unknown => exact climb_ne_unknown (by decide)
  | elevated =>
    refine climb_ne_unknown ?_
    split_ifs <;> decide
  | high | critical | exhausted =>
    simp only [evaluateLevel]
    split_ifs <;> decide

/-! ## The debounce machine -/

/-- `HysteresisState` (hysteresis.h:22). -/
structure HysteresisState (F : Type) [Double F] where
  cfg : HysteresisConfig F
  level : PressureLevel := .normal
  pending : PressureLevel := .unknown
  pendingObs : UInt32 := 0
  pendingSinceMs : UInt64 := 0

namespace HysteresisState

/-- `HysteresisState::HysteresisState` (core.cpp:290). -/
def new (cfg : HysteresisConfig F) : HysteresisState F := { cfg := cfg }

/-- `HysteresisState::current` (hysteresis.h:29). -/
def current (h : HysteresisState F) : PressureLevel := h.level

/-- `HysteresisState::in_hold` (hysteresis.h:30). -/
def inHold (h : HysteresisState F) : Bool := h.pending ≠ .unknown

/-- `HysteresisState::pending_observations` (hysteresis.h:31). -/
def pendingObservations (h : HysteresisState F) : UInt32 := h.pendingObs

/-- `raw` is above the resolved level (core.cpp:298). -/
def escalating (h : HysteresisState F) (raw : PressureLevel) : Prop :=
  severityRank raw > severityRank h.level

instance (h : HysteresisState F) (raw : PressureLevel) : Decidable (h.escalating raw) :=
  inferInstanceAs (Decidable (_ > _))

/-- The immediate escalation to `exhausted` (core.cpp:299). -/
def emergency (h : HysteresisState F) (raw : PressureLevel) : Prop :=
  raw = .exhausted ∧ h.cfg.immediateEmergencyEscalation = true ∧ h.escalating raw

instance (h : HysteresisState F) (raw : PressureLevel) : Decidable (h.emergency raw) :=
  inferInstanceAs (Decidable (_ ∧ _ ∧ _))

/-- The pending transition once this observation of `raw` is counted (core.cpp:303). -/
def window (h : HysteresisState F) (raw : PressureLevel) (nowMs : UInt64) : HysteresisState F :=
  let counted :=
    if h.pending ≠ raw then { h with pending := raw, pendingObs := 1, pendingSinceMs := nowMs }
    else { h with pendingObs := h.pendingObs + 1 }
  if counted.pendingObs > h.cfg.maxDebounceObservations then
    { counted with pendingObs := h.cfg.maxDebounceObservations }
  else counted

/-- `obs_ok && time_ok && delay_ok` (core.cpp:310), asked of the counted window. -/
def due (h : HysteresisState F) (raw : PressureLevel) (nowMs : UInt64) : Prop :=
  h.pendingObs ≥ h.cfg.minDwellObservations ∧
    Double.ofUInt64 (nowMs - h.pendingSinceMs) ≥ h.cfg.minDwellDurationMs ∧
    Double.ofUInt64 (nowMs - h.pendingSinceMs) ≥
      if h.escalating raw then h.cfg.escalationDelayMs else h.cfg.recoveryDelayMs

instance (h : HysteresisState F) (raw : PressureLevel) (nowMs : UInt64) :
    Decidable (h.due raw nowMs) :=
  inferInstanceAs (Decidable (_ ∧ _ ∧ _))

/-- Adopt `raw` and clear the pending transition. -/
def commit (h : HysteresisState F) (raw : PressureLevel) : HysteresisState F :=
  { h with level := raw, pending := .unknown, pendingObs := 0 }

/-- Clear the pending transition. -/
def settle (h : HysteresisState F) : HysteresisState F :=
  { h with pending := .unknown, pendingObs := 0 }

/-- `HysteresisState::update` (core.cpp:292); the returned level is the `level`
of the result in every branch. -/
def update (h : HysteresisState F) (raw : PressureLevel) (nowMs : UInt64) : HysteresisState F :=
  if raw = h.level then h.settle
  else if h.emergency raw then h.commit raw
  else
    let w := h.window raw nowMs
    if w.due raw nowMs then w.commit raw else w

/-- `raw` is confirmed by this observation: its window is due. -/
def confirms (h : HysteresisState F) (raw : PressureLevel) (nowMs : UInt64) : Prop :=
  (h.window raw nowMs).due raw nowMs

instance (h : HysteresisState F) (raw : PressureLevel) (nowMs : UInt64) :
    Decidable (h.confirms raw nowMs) :=
  inferInstanceAs (Decidable ((h.window raw nowMs).due raw nowMs))

@[simp] theorem new_level (cfg : HysteresisConfig F) : (new cfg).level = .normal := rfl

@[simp] theorem new_cfg (cfg : HysteresisConfig F) : (new cfg).cfg = cfg := rfl

@[simp] theorem window_level (h : HysteresisState F) (raw : PressureLevel) (nowMs : UInt64) :
    (h.window raw nowMs).level = h.level := by
  unfold window
  dsimp only
  split_ifs <;> rfl

@[simp] theorem window_cfg (h : HysteresisState F) (raw : PressureLevel) (nowMs : UInt64) :
    (h.window raw nowMs).cfg = h.cfg := by
  unfold window
  dsimp only
  split_ifs <;> rfl

@[simp] theorem update_cfg (h : HysteresisState F) (raw : PressureLevel) (nowMs : UInt64) :
    (h.update raw nowMs).cfg = h.cfg := by
  unfold update
  dsimp only
  split_ifs
  · rfl
  · rfl
  · exact window_cfg h raw nowMs
  · exact window_cfg h raw nowMs

/-- **What an update resolves to**: the raw level when it is already current, an
emergency or confirmed now; the old level otherwise. -/
theorem update_level (h : HysteresisState F) (raw : PressureLevel) (nowMs : UInt64) :
    (h.update raw nowMs).level =
      if raw = h.level ∨ h.emergency raw ∨ h.confirms raw nowMs then raw else h.level := by
  unfold update
  by_cases hcur : raw = h.level
  · rw [if_pos hcur, if_pos (Or.inl hcur)]
    exact hcur.symm
  · rw [if_neg hcur]
    by_cases hem : h.emergency raw
    · rw [if_pos hem, if_pos (Or.inr (Or.inl hem))]
      rfl
    · rw [if_neg hem]
      by_cases hdue : h.confirms raw nowMs
      · rw [if_pos (Or.inr (Or.inr hdue))]
        show (if h.confirms raw nowMs then _ else _ : HysteresisState F).level = raw
        rw [if_pos hdue]
        rfl
      · have hnone : ¬(raw = h.level ∨ h.emergency raw ∨ h.confirms raw nowMs) := by
          rintro (h1 | h1 | h1)
          · exact hcur h1
          · exact hem h1
          · exact hdue h1
        rw [if_neg hnone]
        show (if h.confirms raw nowMs then _ else _ : HysteresisState F).level = h.level
        rw [if_neg hdue]
        exact window_level h raw nowMs

/-- A resolved level is never "no evidence" when neither the machine nor the raw
level is. -/
theorem update_level_ne_unknown {h : HysteresisState F} {raw : PressureLevel} {nowMs : UInt64}
    (hl : h.level ≠ .unknown) (hr : raw ≠ .unknown) : (h.update raw nowMs).level ≠ .unknown := by
  rw [update_level]
  split_ifs
  · exact hr
  · exact hl

/-! ### Machines that cannot be told apart -/

/-- Well-formedness: no count is kept when nothing is pending. -/
def Wf (h : HysteresisState F) : Prop := h.pending = .unknown → h.pendingObs = 0

/-- At rest at the bottom: resolved `normal`, nothing pending. -/
def AtRest (h : HysteresisState F) : Prop := h.current = .normal ∧ h.inHold = false

/-- Equal in everything an update reads: the start of a window matters only
while one is open. -/
structure Similar (a b : HysteresisState F) : Prop where
  cfg : a.cfg = b.cfg
  level : a.level = b.level
  pending : a.pending = b.pending
  pendingObs : a.pendingObs = b.pendingObs
  since : a.pending ≠ .unknown → a.pendingSinceMs = b.pendingSinceMs

theorem wf_new (cfg : HysteresisConfig F) : (new cfg).Wf := fun _ => rfl

theorem window_pending (h : HysteresisState F) (raw : PressureLevel) (nowMs : UInt64) :
    (h.window raw nowMs).pending = raw := by
  unfold window
  dsimp only
  split_ifs with h1 <;> first | rfl | exact not_not.mp h1

theorem wf_update {h : HysteresisState F} {raw : PressureLevel} {nowMs : UInt64}
    (hr : raw ≠ .unknown) : (h.update raw nowMs).Wf := by
  unfold update
  dsimp only
  split_ifs
  · exact fun _ => rfl
  · exact fun _ => rfl
  · exact fun _ => rfl
  · exact fun hp => absurd (window_pending h raw nowMs ▸ hp) hr

theorem Similar.refl (h : HysteresisState F) : Similar h h := ⟨rfl, rfl, rfl, rfl, fun _ => rfl⟩

/-- A machine at rest is as good as a fresh one. -/
theorem AtRest.similar_new {h : HysteresisState F} (hrest : h.AtRest) (hwf : h.Wf) :
    Similar h (new h.cfg) := by
  have hp : h.pending = .unknown := by simpa [inHold] using hrest.2
  exact ⟨rfl, hrest.1, hp, hwf hp, fun hne => absurd hp hne⟩

/-- Similar machines count an observation alike, up to equal windows. -/
theorem Similar.window {a b : HysteresisState F} (h : Similar a b) {raw : PressureLevel}
    (hr : raw ≠ .unknown) (nowMs : UInt64) : a.window raw nowMs = b.window raw nowMs := by
  obtain ⟨acfg, al, ap, ao, as⟩ := a
  obtain ⟨bcfg, bl, bp, bo, bs⟩ := b
  obtain ⟨hcfg, hl, hp, ho, hs⟩ := h
  dsimp only at hcfg hl hp ho hs
  subst hcfg hl hp ho
  by_cases hpr : ap = raw
  · obtain rfl := hs (hpr ▸ hr)
    rfl
  · simp only [HysteresisState.window, ne_eq, hpr, not_false_eq_true, if_true]

/-- Similar machines stay similar under the same update. -/
theorem Similar.update {a b : HysteresisState F} (h : Similar a b) {raw : PressureLevel}
    (hr : raw ≠ .unknown) (nowMs : UInt64) : Similar (a.update raw nowMs) (b.update raw nowMs) := by
  have hw := h.window hr nowMs
  have hem : a.emergency raw ↔ b.emergency raw := by
    simp only [emergency, escalating, h.cfg, h.level]
  unfold HysteresisState.update
  rw [hw, h.level]
  simp only [hem]
  split_ifs
  · exact ⟨h.cfg, h.level, rfl, rfl, fun hne => absurd rfl hne⟩
  · exact ⟨h.cfg, rfl, rfl, rfl, fun hne => absurd rfl hne⟩
  · exact Similar.refl _
  · exact Similar.refl _

end HysteresisState

end MemoryPressure
