import MemoryPressure.Foundation.Potential
import MemoryPressure.Telemetry
import MemoryPressure.OneWayLoad
import Mathlib.Algebra.BigOperators.Ring.List

/-!
# How often levels change (`core.cpp`, `runtime.cpp`)

Debounce is there so that a domain does not flap around a threshold. By how much it
slows a domain down shows in the telemetry, as a bound between two counters: each
change of level takes `min_dwell_observations` observations in a row, and they are
spent when it is made (`debounced_transitions`). The immediate escalation to
`EXHAUSTED` spends nothing, but the domain has to come back down before the next
one, and only the first one of each domain is free (`transitions_amortized`).

- `HysteresisState.update_pays`: what an update spends without that escalation.
- `HysteresisState.credit`, `update_repays`: what it spends with it.

**Proof structure.** This is the potential method, three levels up. An update pays for its
change out of what its machine has counted. A refresh feeds the machines in a finite map,
where `Potential.feed_amortized` adds up what they pay and what is there at first, and its
sweep only drops states (`refresh_pays`). A run chains its refreshes (`Machine.spend_run`),
with the counters of the telemetry on either side. The machines that come into being are the
domains announced as added, if no id is observed twice (`births_le_added`).

Both bounds are met, by a host that fills and empties and by one that is full every third
time, so neither can be improved.
-/

namespace MemoryPressure

variable {F : Type} [Double F]

/-! ## One update -/

namespace HysteresisState

variable {h : HysteresisState F} {raw : PressureLevel} {nowMs : UInt64}

/-- What an update spends where a change of level takes `D` observations. -/
def toll (D : Nat) (h h' : HysteresisState F) : Nat := if h'.level ≠ h.level then D else 0

/-- Counting an observation counts one more at most. -/
theorem window_pendingObs_le :
    (h.window raw nowMs).pendingObs.toNat ≤ h.pendingObs.toNat + 1 := by
  have hsucc : (h.pendingObs + 1).toNat ≤ h.pendingObs.toNat + 1 := by
    rw [UInt32.toNat_add]
    exact Nat.mod_le ..
  have hone : (1 : UInt32).toNat ≤ h.pendingObs.toNat + 1 := Nat.le_add_left 1 _
  unfold window
  dsimp only
  split_ifs with hnew hcap hcap
  -- the cap only lowers a count that is above it
  · exact (Nat.le_of_lt (UInt32.lt_iff_toNat_lt.mp hcap)).trans hone
  · exact hone
  · exact (Nat.le_of_lt (UInt32.lt_iff_toNat_lt.mp hcap)).trans hsucc
  · exact hsucc

/-- A confirmed level has been observed often enough. -/
theorem dwell_le_of_confirms (hc : h.confirms raw nowMs) :
    h.cfg.minDwellObservations.toNat ≤ h.pendingObs.toNat + 1 := by
  have hdue := UInt32.le_iff_toNat_le.mp hc.1
  rw [window_cfg] at hdue
  exact hdue.trans window_pendingObs_le

/-- The three ways an update ends. -/
theorem update_cases (h : HysteresisState F) (raw : PressureLevel) (nowMs : UInt64) :
    ((h.update raw nowMs).level = h.level ∧
        (h.update raw nowMs).pendingObs.toNat ≤ h.pendingObs.toNat + 1) ∨
      (h.emergency raw ∧ h.update raw nowMs = h.commit raw) ∨
      (h.cfg.minDwellObservations.toNat ≤ h.pendingObs.toNat + 1 ∧
        (h.update raw nowMs).pendingObs = 0) := by
  unfold update
  dsimp only
  split_ifs with hcur hem hdue
  · exact Or.inl ⟨rfl, Nat.zero_le _⟩
  · exact Or.inr (Or.inl ⟨hem, rfl⟩)
  · exact Or.inr (Or.inr ⟨dwell_le_of_confirms hdue, rfl⟩)
  · exact Or.inl ⟨window_level h raw nowMs, window_pendingObs_le⟩

theorem toll_of_level {D : Nat} {h' : HysteresisState F} (hl : h'.level = h.level) :
    toll D h h' = 0 := if_neg (not_not.mpr hl)

theorem toll_le (D : Nat) (h h' : HysteresisState F) : toll D h h' ≤ D := by
  unfold toll
  split_ifs
  · exact le_refl _
  · exact Nat.zero_le _

/-- **An update pays for its change** with the observations it has counted, where
nothing escalates at once. -/
theorem update_pays {D : Nat} (hdwell : D ≤ h.cfg.minDwellObservations.toNat)
    (hoff : h.cfg.immediateEmergencyEscalation = false) (raw : PressureLevel) (nowMs : UInt64) :
    (h.update raw nowMs).pendingObs.toNat + toll D h (h.update raw nowMs)
      ≤ h.pendingObs.toNat + 1 := by
  rcases update_cases h raw nowMs with ⟨hlevel, hobs⟩ | ⟨hem, -⟩ | ⟨hdue, hzero⟩
  · rw [toll_of_level hlevel]
    exact hobs
  · rw [hem.2.1] at hoff
    cases hoff
  · have htoll := toll_le D h (h.update raw nowMs)
    rw [hzero]
    show 0 + _ ≤ _
    omega

/-- What a machine has saved: its count twice over and, as long as it can still
escalate at once, what that takes beyond its own observation. -/
def credit (h : HysteresisState F) : Nat :=
  2 * h.pendingObs.toNat
    + if h.level = .exhausted then 0 else h.cfg.minDwellObservations.toNat - 1

theorem credit_le (h : HysteresisState F) :
    h.credit ≤ 2 * h.pendingObs.toNat + (h.cfg.minDwellObservations.toNat - 1) := by
  unfold credit
  split_ifs
  · exact Nat.le_add_right ..
  · exact le_refl _

theorem credit_new (cfg : HysteresisConfig F) :
    (new cfg).credit = cfg.minDwellObservations.toNat - 1 := Nat.zero_add _

/-- **An update pays for its change** out of its credit and twice its observation. A
way down from `exhausted` and the way back there take one observation more together
than the way down. -/
theorem update_repays (h : HysteresisState F) (raw : PressureLevel) (nowMs : UInt64) :
    (h.update raw nowMs).credit
        + toll (h.cfg.minDwellObservations.toNat + 1) h (h.update raw nowMs)
      ≤ h.credit + 2 := by
  have hcfg := update_cfg h raw nowMs
  rcases update_cases h raw nowMs with ⟨hlevel, hobs⟩ | ⟨hem, hcommit⟩ | ⟨hdue, hzero⟩
  · rw [toll_of_level hlevel, credit, credit, hlevel, hcfg]
    omega
  -- at once: paid by what was saved for it, which is gone now
  · have hlow : h.level ≠ .exhausted := by
      intro heq
      have hup := hem.2.2
      rw [escalating, heq, hem.1] at hup
      exact absurd hup (lt_irrefl _)
    have hspent : (h.commit raw).credit = 0 := by
      rw [credit, if_pos (show (h.commit raw).level = .exhausted from hem.1)]
      rfl
    have htoll := toll_le (h.cfg.minDwellObservations.toNat + 1) h (h.commit raw)
    rw [hcommit, hspent, credit, if_neg hlow]
    omega
  · have htoll := toll_le (h.cfg.minDwellObservations.toNat + 1) h (h.update raw nowMs)
    have hcredit := credit_le (h.update raw nowMs)
    rw [hzero, hcfg] at hcredit
    have hzero' : (0 : UInt32).toNat = 0 := rfl
    have hold : 2 * h.pendingObs.toNat ≤ h.credit := Nat.le_add_right ..
    omega

end HysteresisState

/-! ## One refresh -/

open PressureRuntime (CompletesWith refreshed published interpreted swept)

/-- What the states of a runtime have saved, as `w` counts it. -/
def PressureRuntime.saved (w : HysteresisState F → Nat) (rt : PressureRuntime F) : Nat :=
  Keyed.total (fun st => w st.hysteresis) rt.domainStates

/-- What the published changes of level take. -/
def tollOf (D : Nat) (ds : DomainState F) : Nat := if ds.level ≠ ds.previousLevel then D else 0

theorem sum_tollOf (D : Nat) (l : List (DomainState F)) :
    (l.map (tollOf D)).sum = D * l.countP fun ds => ds.level ≠ ds.previousLevel := by
  induction l with
  | nil => rfl
  | cons ds l ih =>
    rw [List.map_cons, List.sum_cons, ih, List.countP_cons, Nat.mul_add, Nat.add_comm, tollOf]
    split_ifs <;> simp_all

section

variable {rt : PressureRuntime F} {nowMs : UInt64} {polls : List (Poll F)} {log : PollLog F}

variable (rt nowMs log) in
/-- The sweep only drops states. -/
theorem saved_swept (w : HysteresisState F → Nat) :
    (refreshed rt.policy rt.budgets rt nowMs log).saved w
      ≤ Keyed.total (fun st => w st.hysteresis)
          (interpreted rt.policy rt.budgets rt nowMs log).1 := by
  refine Keyed.total_mono fun d st hst => ?_
  rw [PressureRuntime.lookup_refreshed] at hst
  split_ifs at hst
  exact (Keyed.feed_lookup ..).trans hst

variable (nowMs log) in
/-- **A refresh pays for its changes** where every update does: what `w` saves of a
domain, with the toll of its change, is at most what it saved before, and `cost`. -/
theorem refresh_pays (hs : Sound rt) {w : HysteresisState F → Nat} {D cost : Nat}
    (hpay : ∀ h : HysteresisState F, h.cfg = rt.policy.hysteresis → ∀ raw nowMs,
      w (h.update raw nowMs) + h.toll D (h.update raw nowMs) ≤ w h + cost) :
    (refreshed rt.policy rt.budgets rt nowMs log).saved w
        + D * (refreshed rt.policy rt.budgets rt nowMs log).stats.pressureTransitions
        + cost * rt.stats.observations
      ≤ rt.saved w + D * rt.stats.pressureTransitions
        + cost * (refreshed rt.policy rt.budgets rt nowMs log).stats.observations
        + w (HysteresisState.new rt.policy.hysteresis)
          * Keyed.births (fun sight : Sighting F => sight.2.id) rt.domainStates log.sightings := by
  have hfeed := Keyed.feed_amortized (w := fun st => w st.hysteresis)
    (DomainRuntimeState.new rt.policy.hysteresis 16) (fun sight : Sighting F => sight.2.id)
    (interpretStep rt.policy rt.budgets nowMs) (fun _ => cost) (tollOf D)
    (P := DomainRuntimeState.Sound rt.policy.hysteresis) (DomainRuntimeState.sound_new _ _)
    (fun st sight hst => ⟨hst.observe rt.policy _ nowMs sight.2, hpay st.hysteresis hst.cfg _ _⟩)
    log.sightings hs.states
  rw [sum_tollOf, List.map_const', List.sum_replicate_nat, Nat.mul_comm _ cost] at hfeed
  have hsaved := saved_swept rt nowMs log w
  show _ + D * (rt.stats.pressureTransitions + _) + _
    ≤ _ + _ + cost * (rt.stats.observations + _) + _
  rw [Nat.mul_add, Nat.mul_add]
  have hfeed' : Keyed.total (fun st : DomainRuntimeState F => w st.hysteresis)
        (interpreted rt.policy rt.budgets rt nowMs log).1
      + D * (interpreted rt.policy rt.budgets rt nowMs log).2.countP
          (fun ds => ds.level ≠ ds.previousLevel)
      ≤ rt.saved w + cost * log.sightings.length + w (HysteresisState.new rt.policy.hysteresis)
        * Keyed.births (fun sight : Sighting F => sight.2.id) rt.domainStates log.sightings := hfeed
  omega

/-- The domains that a refresh starts to retain are announced as added. -/
theorem births_le_added (hmir : ∀ d, MirrorsAt d rt) (hlog : CompletesWith rt nowMs polls log) :
    Keyed.births (fun sight : Sighting F => sight.2.id) rt.domainStates log.sightings
      ≤ (published rt.policy rt.budgets rt nowMs log).ofType .domainAdded := by
  have hcount : (published rt.policy rt.budgets rt nowMs log).ofType .domainAdded
      = ((swept rt.policy rt.budgets rt nowMs log).domains.filter fun ds =>
          (rt.currentSnapshot.findDomain ds.id).isNone).length := by
    have hstamped := countP_stampIds (p := fun e => e.type = .domainAdded) (fun _ _ => rfl)
      rt.eventId (PressureRuntime.draftEvents rt.policy rt.budgets rt nowMs log)
    rw [List.countP_eq_length_filter (l := PressureRuntime.draftEvents ..), filter_domainAdded hlog,
      addedEvents, List.length_map] at hstamped
    exact hstamped
  rw [hcount, ← List.length_map (f := DomainState.id)]
  refine le_trans (Finset.card_le_card fun d hd => ?_) (List.toFinset_card_le _)
  obtain ⟨hmem, hnew⟩ := Finset.mem_sdiff.mp hd
  rw [List.mem_toFinset] at hmem ⊢
  have hseen : d ∈ PressureRuntime.observedIds log := hmem
  have hnone : rt.domainStates.lookup d = none :=
    Finmap.lookup_eq_none.mpr (mt Finmap.mem_keys.mpr hnew)
  -- not retained, so not published either
  have hgone : rt.currentSnapshot.entriesOf d = [] := by
    rcases hmir d with ⟨-, hnil⟩ | ⟨st, pd, hst, -⟩
    · exact hnil
    · rw [hnone] at hst
      cases hst
  have hids : (interpreted rt.policy rt.budgets rt nowMs log).2.map DomainState.id
      = PressureRuntime.observedIds log := PressureRuntime.interpreted_ids
  rw [← hids] at hseen
  obtain ⟨ds, hds, rfl⟩ := List.mem_map.mp hseen
  refine List.mem_map_of_mem (List.mem_filter.mpr ⟨?_, ?_⟩)
  · rw [PressureRuntime.swept_domains]
    exact List.mem_append_left _ hds
  · rw [Snapshot.findDomain_eq_head?, hgone]
    rfl

end

/-! ## Runs -/

/-- A call other than a refresh counts nothing, and saves nothing. -/
theorem quiet_step {w : HysteresisState F → Nat} (rt : PressureRuntime F) {op : Op F}
    (hop : op.isRefresh = false)
    (hset : op.setsPolicy = true → ∀ cfg, w (HysteresisState.new cfg) = 0) :
    (step rt op).1.saved w ≤ rt.saved w ∧
      (step rt op).1.stats.pressureTransitions = rt.stats.pressureTransitions ∧
      (step rt op).1.stats.observations = rt.stats.observations := by
  cases op with
  | refresh nowMs polls => cases hop
  | clearBudget | setHistoryLimit | registerProvider => exact ⟨le_refl _, rfl, rfl⟩
  | setBudget id b =>
    show (rt.setBudget id b).saved w ≤ _ ∧ (rt.setBudget id b).stats.pressureTransitions = _ ∧
      (rt.setBudget id b).stats.observations = _
    rw [rt.setBudget_eq id b]
    exact ⟨le_refl _, rfl, rfl⟩
  | setPolicy p =>
    show (rt.setPolicy p).saved w ≤ _ ∧ (rt.setPolicy p).stats.pressureTransitions = _ ∧
      (rt.setPolicy p).stats.observations = _
    unfold PressureRuntime.setPolicy
    split_ifs
    · exact ⟨le_refl _, rfl, rfl⟩
    -- every machine is rebuilt
    · refine ⟨?_, rfl, rfl⟩
      have hnone := Keyed.total_le (n := 0) (w := fun st : DomainRuntimeState F => w st.hysteresis)
        (m := Keyed.mapVal (fun st => { st with hysteresis := HysteresisState.new p.hysteresis })
          rt.domainStates) fun d st hst => by
            rw [Keyed.lookup_mapVal, Option.map_eq_some_iff] at hst
            obtain ⟨st', -, rfl⟩ := hst
            exact Nat.le_of_eq (hset rfl _)
      rw [Nat.zero_mul] at hnone
      exact hnone.trans (Nat.zero_le _)

/-- **A step pays for its changes**, where its updates do and its publication pays
for the domains it starts to retain. -/
theorem step_pays {rt : PressureRuntime F} (hs : Sound rt) {w : HysteresisState F → Nat}
    {D cost paid : Nat} {op : Op F}
    (hpay : op.isRefresh = true → ∀ h : HysteresisState F, h.cfg = rt.policy.hysteresis →
      ∀ raw nowMs, w (h.update raw nowMs) + h.toll D (h.update raw nowMs) ≤ w h + cost)
    (hset : op.setsPolicy = true → ∀ cfg, w (HysteresisState.new cfg) = 0)
    (hborn : ∀ nowMs polls log, CompletesWith rt nowMs polls log →
      w (HysteresisState.new rt.policy.hysteresis)
          * Keyed.births (fun sight : Sighting F => sight.2.id) rt.domainStates log.sightings
        ≤ paid * (published rt.policy rt.budgets rt nowMs log).ofType .domainAdded) :
    (step rt op).1.saved w + D * (step rt op).1.stats.pressureTransitions
        + cost * rt.stats.observations
      ≤ rt.saved w + D * rt.stats.pressureTransitions + cost * (step rt op).1.stats.observations
        + ((step rt op).2.map fun pub => paid * pub.ofType .domainAdded).sum := by
  cases op with
  | refresh nowMs polls =>
    show (rt.refresh nowMs polls).1.saved w + D *
      (rt.refresh nowMs polls).1.stats.pressureTransitions
        + _ ≤ _ + cost * (rt.refresh nowMs polls).1.stats.observations
          + ((rt.refresh nowMs polls).2.map _).sum
    rcases rt.refresh_cases nowMs polls with ⟨log, hlog⟩ | ⟨-, log, heq⟩
    · have hrefresh := refresh_pays nowMs log hs (hpay rfl)
      have hpaid := hborn nowMs polls log hlog
      rw [hlog.refresh_eq, List.map_singleton, List.sum_singleton]
      exact hrefresh.trans (Nat.add_le_add_left hpaid _)
    · rw [heq]
      exact le_refl _
  | _ =>
    obtain ⟨hsaved, htransitions, hobservations⟩ := quiet_step (w := w) rt rfl hset
    rw [htransitions, hobservations]
    omega

/-- The call refreshes only under a policy that asks for `D` observations before every
change of level. -/
def Debounces (D : Nat) (rt : PressureRuntime F) (op : Op F) : Prop :=
  op.isRefresh = true → D ≤ rt.policy.hysteresis.minDwellObservations.toNat ∧
    rt.policy.hysteresis.immediateEmergencyEscalation = false

instance (D : Nat) (rt : PressureRuntime F) (op : Op F) : Decidable (Debounces D rt op) :=
  inferInstanceAs (Decidable (_ → _))

/-- The observations counted towards changes of level that have not been made. -/
def PressureRuntime.pending (rt : PressureRuntime F) : Nat := rt.saved fun h => h.pendingObs.toNat

/-- **Debounce bounds the changes of level.** In every stretch of every run in which
refreshes ask for `D` observations before a change, the changes take `D` observations
each, of those made in the stretch or counted towards a change at its start. -/
theorem debounced_transitions (D : Nat) (pre ops : List (Op F)) :
    let before := runFrom PressureRuntime.init pre
    let after := runFrom before ops
    Machine.Along step (Debounces D) before ops →
      after.pending + D * after.stats.pressureTransitions + before.stats.observations
        ≤ before.pending + D * before.stats.pressureTransitions + after.stats.observations := by
  intro before after h
  have hrun := Machine.spend_run step
    (fun rt : PressureRuntime F => rt.pending + D * rt.stats.pressureTransitions)
    (fun rt => 1 * rt.stats.observations) (fun pub => 0 * pub.ofType .domainAdded)
    (Q := Debounces D) (fun rt op _ hs => sound_step hs op)
    (fun rt op hq hs => step_pays hs
      (fun hop g hcfg => HysteresisState.update_pays (hcfg ▸ (hq hop).1) (hcfg ▸ (hq hop).2))
      (fun _ _ => rfl) (fun _ _ _ _ => by
        rw [Nat.zero_mul]
        exact Nat.le_of_eq (Nat.zero_mul _))) h (sound_run pre)
  simp only [Nat.one_mul, Nat.zero_mul, List.map_const', List.sum_replicate_nat, Nat.mul_zero,
    Nat.add_zero] at hrun
  exact hrun

/-- The default policy, with no escalation at once. -/
def patient : PressurePolicy ℚ :=
  { defaultPolicy with hysteresis := { immediateEmergencyEscalation := false } }

/-- A host that fills and empties again. -/
def fillsAndEmpties : List (Op ℚ) := hostLoads ([99, 99, 10, 10, 10, 10, 10, 10].map some)

/-- `fillsAndEmpties` meets the bound: four changes, of two observations each. -/
theorem debounced_transitions_met :
    let before := runFrom PressureRuntime.init [.setPolicy patient]
    let after := runFrom before fillsAndEmpties
    after.pending + 2 * after.stats.pressureTransitions + before.stats.observations
        ≤ before.pending + 2 * before.stats.pressureTransitions + after.stats.observations ∧
      after.stats.pressureTransitions = 4 ∧ after.stats.observations = 8 := by
  intro before after
  exact ⟨debounced_transitions 2 [.setPolicy patient] fillsAndEmpties (by decide +kernel),
    by decide +kernel, by decide +kernel⟩

/-- A stretch of a run under one policy that observes no id twice in a refresh. -/
theorem amortized_run {start : PressureRuntime F} (hs : Sound start) (hmir : ∀ d, MirrorsAt d start)
    {D : Nat} (hD : start.policy.hysteresis.minDwellObservations.toNat = D) {ops : List (Op F)}
    (hpol : ∀ op ∈ ops, op.setsPolicy = false) (hops : ∀ op ∈ ops, op.observes.Nodup) :
    (runFrom start ops).saved HysteresisState.credit
        + (D + 1) * (runFrom start ops).stats.pressureTransitions + 2 * start.stats.observations
      ≤ start.saved HysteresisState.credit + (D + 1) * start.stats.pressureTransitions
        + 2 * (runFrom start ops).stats.observations
        + ((publishedBy start ops).map fun pub => (D - 1) * pub.ofType .domainAdded).sum := by
  refine Machine.spend_run step
    (fun rt : PressureRuntime F => rt.saved HysteresisState.credit
      + (D + 1) * rt.stats.pressureTransitions)
    (fun rt => 2 * rt.stats.observations) (fun pub => (D - 1) * pub.ofType .domainAdded)
    (I := fun rt => Sound rt ∧ (∀ d, MirrorsAt d rt) ∧
      rt.policy.hysteresis.minDwellObservations.toNat = D)
    (Q := fun _ op => op.setsPolicy = false ∧ op.observes.Nodup)
    (fun rt op hq h => ⟨sound_step h.1 op, fun d => ?_, ?_⟩) (fun rt op hq h => ?_)
    ((Machine.along_const_iff step).mpr fun op hop => ⟨hpol op hop, hops op hop⟩) ⟨hs, hmir, hD⟩
  · exact mirrorsAt_step (h.2.1 d) hq.1 (List.nodup_iff_count_le_one.mp hq.2 d)
  · rw [policy_step rt hq.1]
    exact h.2.2
  · refine step_pays h.1 (fun _ g hcfg raw nowMs => ?_) (fun hset => ?_)
      fun nowMs polls log hlog => ?_
    · have hpays := g.update_repays raw nowMs
      rw [hcfg, h.2.2] at hpays
      exact hpays
    · rw [hq.1] at hset
      cases hset
    · rw [HysteresisState.credit_new, h.2.2]
      exact Nat.mul_le_mul_left _ (births_le_added h.2.1 hlog)

/-- **Debounce bounds the changes of level, emergencies included.** In a run under one
policy that observes no id twice in a refresh, `min_dwell_observations + 1` for each
change is at most two for each observation, and `min_dwell_observations - 1` for each
domain announced as added. -/
theorem transitions_amortized (p : PressurePolicy F) {ops : List (Op F)}
    (hpol : ∀ op ∈ ops, op.setsPolicy = false) (hops : ∀ op ∈ ops, op.observes.Nodup) :
    let start := PressureRuntime.init.setPolicy p
    let D := start.policy.hysteresis.minDwellObservations.toNat
    (D + 1) * (runFrom start ops).stats.pressureTransitions
      ≤ 2 * (runFrom start ops).stats.observations
        + (D - 1) * ((publishedBy start ops).map fun pub => pub.ofType .domainAdded).sum := by
  have hempty : (PressureRuntime.init.setPolicy p).saved HysteresisState.credit = 0 ∧
      (PressureRuntime.init.setPolicy p).stats.pressureTransitions = 0 ∧
      (PressureRuntime.init.setPolicy p).stats.observations = 0 := by
    unfold PressureRuntime.setPolicy
    split_ifs <;> exact ⟨rfl, rfl, rfl⟩
  have hsound : Sound (PressureRuntime.init.setPolicy p) := sound_step sound_init (.setPolicy p)
  have hrun := amortized_run hsound (fun d => (holds_start (fun _ _ _ => True) p d).mirrors) rfl
    hpol hops
  rw [hempty.1, hempty.2.1, hempty.2.2, List.sum_map_mul_left] at hrun
  simp only [Nat.mul_zero, Nat.add_zero, Nat.zero_add] at hrun
  exact (Nat.le_add_left ..).trans hrun

/-- A host that is full every third time. -/
def flapping : List (Op ℚ) := hostLoads ([99, 10, 10, 99, 10, 10, 99].map some)

/-- `flapping` meets the bound: three for each of five changes, two for each of seven
observations and one for the host. -/
theorem transitions_amortized_met :
    let start := PressureRuntime.init.setPolicy (defaultPolicy : PressurePolicy ℚ)
    let D := start.policy.hysteresis.minDwellObservations.toNat
    (D + 1) * (runFrom start flapping).stats.pressureTransitions
        ≤ 2 * (runFrom start flapping).stats.observations
          + (D - 1) * ((publishedBy start flapping).map fun pub => pub.ofType .domainAdded).sum ∧
      D = 2 ∧ (runFrom start flapping).stats.pressureTransitions = 5 ∧
      (runFrom start flapping).stats.observations = 7 := by
  intro start D
  exact ⟨transitions_amortized defaultPolicy (by decide +kernel) (by decide +kernel),
    by decide +kernel, by decide +kernel, by decide +kernel⟩

end MemoryPressure
