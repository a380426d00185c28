import MemoryPressure.BudgetsInForce
import MemoryPressure.ClosedLoop
import MemoryPressure.CrossTier

/-!
# Published snapshots are well formed (`snapshot.h`, `runtime.cpp`)

What a reader may rely on in every snapshot, whatever was called before, whatever
the providers reported and however often (`published_well_formed`).

- `DomainState.WellFormed`: one entry. Fresh entries are made from a retained state
  that is well formed itself (`DomainRuntimeState.WellFormed`), retained ones are
  copies.
- `Snapshot.WellFormed`: the entries together, with what is computed over them.

Of an entry: it is at a known level, its peak is not below its level, its budget passes its
check, its available bytes are what its commitment leaves of its usable capacity, and its
utilization is computed from the two. Where the budget governs, the total and the usable
capacity and the reserve are those of the budget; where it does not they are what the
provider said, about which nothing is known.

Of a snapshot: entries bear its time, their responses and explanations are those of the
second pass over the entries as published, the aggregate level is that of a worst entry, the
generation is at most the number of the snapshot, and the confidence follows from the flag
for partial data. That ids are distinct is not part of it, since they need not be
(`Uniqueness.lean`).

The invariant of a run has a third part, the retained states, as the next entries are made
from them (`PressureRuntime.WellFormed`).
-/

namespace MemoryPressure

variable {F : Type} [Double F]

/-! ## Entries -/

/-- What is true of every published entry. -/
structure DomainState.WellFormed (ds : DomainState F) : Prop where
  level : ds.level ≠ .unknown
  previousLevel : ds.previousLevel ≠ .unknown
  /-- The peak is a level, and none below the current one. -/
  peak : severityFloor ds.level ≤ ds.peakLevel ∧ ds.peakLevel ≤ severityFloor .exhausted
  budget : validateBudget ds.budget = none
  governed : ds.governed = true ↔ ds.budget.hardCapacity ≠ 0
  capacity : ds.governed = true → ds.totalCapacity = ds.budget.hardCapacity ∧
    ds.usableCapacity = ds.budget.usableCapacity ∧ ds.reservedBytes = ds.budget.reserveBytes
  available : ds.available.toNat = ds.usableCapacity.toNat - ds.committed.toNat
  utilization : ds.utilization = utilizationFor ds.committed ds.usableCapacity
  window : ds.trendWindowSamples ≤ 16

/-- What is true of every retained state, the debounce configuration in force given. -/
structure DomainRuntimeState.WellFormed (cfg : HysteresisConfig F) (st : DomainRuntimeState F) :
    Prop extends st.Sound cfg where
  peak : st.peakLevelRank ≤ severityFloor .exhausted
  window : st.trend.windowSamples = 16

theorem severityFloor_le (level : PressureLevel) :
    severityFloor level ≤ severityFloor .exhausted := by
  cases level <;> decide

theorem DomainRuntimeState.wellFormed_new (cfg : HysteresisConfig F) :
    (DomainRuntimeState.new cfg 16).WellFormed cfg where
  toSound := sound_new cfg 16
  peak := Nat.zero_le _
  window := rfl

/-- An estimate is made over the samples of the window. -/
theorem TrendEstimator.estimate_samples (e : TrendEstimator) :
    (e.estimate : TrendEstimate F).samples = e.samples.length := by
  unfold estimate
  split
  · rename_i h
    rw [h]
  · rename_i h
    rw [h]
  · dsimp only
    split_ifs <;> rfl

/-- No sample more than the window holds is kept. -/
theorem TrendEstimator.length_addSample_le (e : TrendEstimator) (committed timestampMs : UInt64) :
    (e.addSample committed timestampMs).samples.length ≤ e.windowSamples := by
  unfold addSample
  dsimp only
  rw [List.length_drop]
  omega

/-- What is free is what is not committed, or nothing. -/
theorem toNat_free (committed usable : UInt64) :
    (if usable > committed then usable - committed else 0 : UInt64).toNat
      = usable.toNat - committed.toNat := by
  split_ifs with h
  · exact UInt64.toNat_sub_of_le _ _ (UInt64.le_of_lt h)
  · have hle : usable.toNat ≤ committed.toNat := not_lt.mp (mt UInt64.lt_iff_toNat_lt.mpr h)
    exact (Nat.sub_eq_zero_of_le hle).symm

/-- A budget in force governs exactly when it has a capacity. -/
theorem isGoverned_iff (budget : Option Budget) :
    isGoverned budget = true ↔ (effectiveBudget budget).hardCapacity ≠ 0 := by
  cases budget with
  | none => decide
  | some b =>
    by_cases hb : b.hardCapacity = 0
    · simp [isGoverned, effectiveBudget, hb, defaultBudget]
    · simp [isGoverned, effectiveBudget, hb]

/-- **An observation** of a well-formed state under a checked budget keeps it well
formed, and publishes a well-formed entry. -/
theorem DomainRuntimeState.WellFormed.interpretStep {cfg : HysteresisConfig F}
    {st : DomainRuntimeState F} (h : st.WellFormed cfg) (pol : PressurePolicy F) {budgets : Budgets}
    (hbudgets : ∀ d b, budgets.lookup d = some b → validateBudget b = none) (nowMs : UInt64)
    (sight : Sighting F) :
    (MemoryPressure.interpretStep pol budgets nowMs st sight).1.WellFormed cfg ∧
      (MemoryPressure.interpretStep pol budgets nowMs st sight).2.WellFormed := by
  have hsound := h.toSound.observe pol (budgets.lookup sight.2.id) nowMs sight.2
  refine ⟨⟨hsound, Nat.max_le.mpr ⟨h.peak, severityFloor_le _⟩, h.window⟩, ?_⟩
  exact
    { level := hsound.resolved
      previousLevel := h.resolved
      peak := ⟨Nat.le_max_right .., Nat.max_le.mpr ⟨h.peak, severityFloor_le _⟩⟩
      budget := validateBudget_effectiveBudget (hbudgets sight.2.id)
      governed := isGoverned_iff _
      capacity := fun hgov => ⟨if_pos hgov, if_pos hgov, if_pos hgov⟩
      available := toNat_free ..
      utilization := rfl
      window := by
        have hsamples := st.trend.length_addSample_le sight.2.committed nowMs
        rw [h.window] at hsamples
        exact (Nat.le_of_eq (TrendEstimator.estimate_samples _)).trans hsamples }

theorem DomainState.WellFormed.keeper {ds : DomainState F} (h : ds.WellFormed) (nowMs : UInt64) :
    (MemoryPressure.keeper nowMs ds).WellFormed :=
  ⟨h.level, h.previousLevel, h.peak, h.budget, h.governed, h.capacity, h.available, h.utilization,
    h.window⟩

theorem DomainState.WellFormed.respond {ds : DomainState F} (h : ds.WellFormed) (blocked : Bool) :
    (MemoryPressure.respond blocked ds).WellFormed :=
  ⟨h.level, h.previousLevel, h.peak, h.budget, h.governed, h.capacity, h.available, h.utilization,
    h.window⟩

/-! ## The aggregate level -/

theorem aggSev_fold_le {n : Nat} (domains : List (DomainState F)) (acc : Nat) :
    domains.foldl (fun acc d => max acc (severityFloor d.level)) acc ≤ n
      ↔ acc ≤ n ∧ ∀ d ∈ domains, severityFloor d.level ≤ n := by
  induction domains generalizing acc with
  | nil => simp
  | cons d ds ih =>
    rw [List.foldl_cons, ih, List.forall_mem_cons, Nat.max_le, and_assoc]

/-- The aggregate severity is the worst of all. -/
theorem aggSev_le_iff {n : Nat} {domains : List (DomainState F)} :
    aggSev domains ≤ n ↔ ∀ d ∈ domains, severityFloor d.level ≤ n := by
  rw [aggSev, aggSev_fold_le]
  exact and_iff_right (Nat.zero_le n)

/-- The aggregate severity is that of an entry. -/
theorem exists_aggSev {domains : List (DomainState F)} (hne : domains ≠ []) :
    ∃ d ∈ domains, severityFloor d.level = aggSev domains := by
  by_contra hnone
  push Not at hnone
  have hall : ∀ d ∈ domains, severityFloor d.level ≤ aggSev domains :=
    aggSev_le_iff.mp (le_refl _)
  obtain ⟨d, hd⟩ := List.exists_mem_of_ne_nil domains hne
  -- below the worst by one, all of them would be below the worst
  have hless : aggSev domains ≤ aggSev domains - 1 := aggSev_le_iff.mpr fun d hd => by
    have := hall d hd
    have := hnone d hd
    omega
  have := hall d hd
  have := hnone d hd
  omega

/-- The level of a severity. -/
theorem aggregateLevelOf_eq {domains : List (DomainState F)} {d : DomainState F}
    (hd : d ∈ domains) (hlevel : d.level ≠ .unknown)
    (hworst : severityFloor d.level = aggSev domains) : aggregateLevelOf domains = d.level := by
  have hne : domains.isEmpty = false := by
    cases domains with
    | nil => cases hd
    | cons => rfl
  rw [aggregateLevelOf, hne, ← hworst]
  cases hl : d.level <;> first | rfl | exact absurd hl hlevel

/-! ## Snapshots -/

/-- What is true of every published snapshot. -/
structure Snapshot.WellFormed (s : Snapshot F) : Prop where
  entries : ∀ ds ∈ s.domains, ds.WellFormed
  /-- Retained or not, an entry is of the time of its snapshot. -/
  stamped : ∀ ds ∈ s.domains, ds.timestampMs = s.timestampMs
  /-- Responses and explanation are those of the entry as it is published. -/
  answers : ∀ ds ∈ s.domains, respond (hostBlocked s.domains) ds = ds
  worst : ∀ ds ∈ s.domains, severityRank ds.level ≤ severityRank s.aggregateLevel
  aggregate : s.domains ≠ [] → ∃ ds ∈ s.domains, ds.level = s.aggregateLevel
  empty : s.domains = [] → s.aggregateLevel = .unknown
  generation : s.generation ≤ s.id
  confidence : s.confidence = if s.partialData then .medium else .high

theorem severityFloor_eq {level : PressureLevel} (h : level ≠ .unknown) :
    (severityFloor level : Int) = severityRank level :=
  Int.toNat_of_nonneg (le_max_left ..) |>.trans (max_eq_right (severityRank_nonneg h))

/-- What is true of a runtime between calls. -/
structure PressureRuntime.WellFormed (rt : PressureRuntime F) : Prop where
  states : ∀ d st, rt.domainStates.lookup d = some st → st.WellFormed rt.policy.hysteresis
  entries : ∀ ds ∈ rt.currentSnapshot.domains, ds.WellFormed
  generation : rt.generation ≤ rt.snapshotId

open PressureRuntime (CompletesWith refreshed published swept interpreted newDomains)

section

variable {rt : PressureRuntime F} {nowMs : UInt64} {polls : List (Poll F)} {log : PollLog F}

variable (nowMs log) in
/-- **A refresh** keeps the states well formed, and what it publishes is. -/
theorem wellFormed_feed (h : rt.WellFormed) (hb : BudgetsValid rt) :
    (∀ d st, (refreshed rt.policy rt.budgets rt nowMs log).domainStates.lookup d = some st →
      st.WellFormed rt.policy.hysteresis) ∧
      ∀ ds ∈ (swept rt.policy rt.budgets rt nowMs log).domains, ds.WellFormed := by
  obtain ⟨hstates, hfresh⟩ := Keyed.feed_invariant
    (DomainRuntimeState.new rt.policy.hysteresis 16) (fun sight : Sighting F => sight.2.id)
    (interpretStep rt.policy rt.budgets nowMs)
    (P := DomainRuntimeState.WellFormed rt.policy.hysteresis) (Q := DomainState.WellFormed)
    (DomainRuntimeState.wellFormed_new _)
    (fun st sight hst => hst.interpretStep rt.policy hb.set nowMs sight)
    log.sightings rt.domainStates h.states
  refine ⟨fun d st hst => ?_, fun ds hds => ?_⟩
  · rw [PressureRuntime.lookup_refreshed] at hst
    split_ifs at hst
    exact hstates d st ((Keyed.feed_lookup ..).trans hst)
  · rw [PressureRuntime.swept_domains, List.mem_append] at hds
    rcases hds with hnew | hkept
    · exact hfresh ds hnew
    · obtain ⟨pd, hpd, rfl⟩ := List.mem_map.mp hkept
      exact (h.entries pd (List.mem_filter.mp hpd).1).keeper nowMs

/-- Everything in a refresh is of its time. -/
theorem swept_stamped {ds : DomainState F}
    (hds : ds ∈ (swept rt.policy rt.budgets rt nowMs log).domains) : ds.timestampMs = nowMs := by
  rw [PressureRuntime.swept_domains, List.mem_append] at hds
  rcases hds with hnew | hkept
  · exact Keyed.feed_forall_outputs _ _ (interpretStep rt.policy rt.budgets nowMs)
      (Q := fun ds => ds.timestampMs = nowMs) (fun _ _ => rfl) log.sightings rt.domainStates ds hnew
  · obtain ⟨pd, -, rfl⟩ := List.mem_map.mp hkept
    rfl

/-- **What a refresh publishes** is well formed. -/
theorem wellFormed_published (h : rt.WellFormed) (hb : BudgetsValid rt) :
    (published rt.policy rt.budgets rt nowMs log).snapshot.WellFormed := by
  have hswept := (wellFormed_feed nowMs log h hb).2
  have hentries : ∀ ds ∈ newDomains rt.policy rt.budgets rt nowMs log, ds.WellFormed := by
    intro ds₀ hds₀
    obtain ⟨ds, hds, rfl⟩ := List.mem_map.mp hds₀
    exact (hswept ds hds).respond _
  have hworst : ∀ ds ∈ newDomains rt.policy rt.budgets rt nowMs log,
      severityFloor ds.level = aggSev (newDomains rt.policy rt.budgets rt nowMs log) →
        ds.level = aggregateLevelOf (newDomains rt.policy rt.budgets rt nowMs log) :=
    fun ds hds heq => (aggregateLevelOf_eq hds (hentries ds hds).level heq).symm
  refine
    { entries := hentries
      stamped := fun ds₀ hds₀ => ?_
      answers := fun ds₀ hds₀ => ?_
      worst := fun ds hds => ?_
      aggregate := fun hne => ?_
      empty := fun hnil => ?_
      generation := ?_
      confidence := rfl }
  · obtain ⟨ds, hds, rfl⟩ := List.mem_map.mp hds₀
    have htime : ds.timestampMs = nowMs := swept_stamped hds
    exact htime
  · -- the second pass reads types and levels, and leaves them alone
    obtain ⟨ds, hds, rfl⟩ := List.mem_map.mp hds₀
    show respond (hostBlocked (crossTier _)) _ = _
    rw [hostBlocked_crossTier]
    rfl
  · obtain ⟨w, hw, hwmax⟩ := exists_aggSev (List.ne_nil_of_mem hds)
    have hle : severityFloor ds.level ≤ severityFloor w.level :=
      (aggSev_le_iff.mp (le_refl _) ds hds).trans_eq hwmax.symm
    show severityRank ds.level ≤ severityRank (aggregateLevelOf _)
    rw [← hworst w hw hwmax, ← severityFloor_eq (hentries ds hds).level,
      ← severityFloor_eq (hentries w hw).level]
    exact Int.ofNat_le.mpr hle
  · obtain ⟨w, hw, hwmax⟩ := exists_aggSev hne
    exact ⟨w, hw, hworst w hw hwmax⟩
  · show aggregateLevelOf (newDomains rt.policy rt.budgets rt nowMs log) = .unknown
    rw [show newDomains rt.policy rt.budgets rt nowMs log = [] from hnil]
    rfl
  · show (if _ then rt.generation + 1 else rt.generation) ≤ rt.snapshotId + 1
    have := h.generation
    split_ifs
    · exact Nat.succ_le_succ this
    · exact this.trans (Nat.le_succ _)

/-- A refresh keeps the runtime well formed. -/
theorem PressureRuntime.WellFormed.refreshed (h : rt.WellFormed) (hb : BudgetsValid rt) :
    (PressureRuntime.refreshed rt.policy rt.budgets rt nowMs log).WellFormed where
  states := (wellFormed_feed nowMs log h hb).1
  entries := (wellFormed_published h hb).entries
  generation := (wellFormed_published h hb).generation

end

/-! ## Runs -/

theorem PressureRuntime.wellFormed_init :
    (PressureRuntime.init : PressureRuntime F).WellFormed where
  states := fun _ _ h => by cases h
  entries := fun _ h => by cases h
  generation := Nat.zero_le _

/-- **A step keeps a runtime well formed.** -/
theorem PressureRuntime.WellFormed.step {rt : PressureRuntime F} (h : rt.WellFormed)
    (hb : BudgetsValid rt) (op : Op F) : (MemoryPressure.step rt op).1.WellFormed := by
  cases op with
  | setBudget id b =>
    show (rt.setBudget id b).WellFormed
    rw [rt.setBudget_eq id b]
    exact ⟨h.states, h.entries, h.generation⟩
  | clearBudget | setHistoryLimit | registerProvider =>
    exact ⟨h.states, h.entries, h.generation⟩
  | setPolicy p =>
    show (rt.setPolicy p).WellFormed
    unfold PressureRuntime.setPolicy
    split_ifs
    · exact h
    -- the debounce is rebuilt, what the domain has seen is kept
    · refine ⟨fun d st hst => ?_, h.entries, h.generation⟩
      rw [Keyed.lookup_mapVal, Option.map_eq_some_iff] at hst
      obtain ⟨st₀, hst₀, rfl⟩ := hst
      exact
        { toSound := ⟨rfl, by simp, HysteresisState.wf_new _⟩
          peak := (h.states d st₀ hst₀).peak
          window := (h.states d st₀ hst₀).window }
  | refresh nowMs polls =>
    show (rt.refresh nowMs polls).1.WellFormed
    rcases rt.refresh_cases nowMs polls with ⟨log, hlog⟩ | ⟨-, log, heq⟩
    · rw [hlog.refresh_eq]
      exact h.refreshed hb
    · rw [heq]
      exact ⟨h.states, h.entries, h.generation.trans (Nat.le_succ _)⟩

theorem PressureRuntime.wellFormed_run (ops : List (Op F)) :
    (runFrom PressureRuntime.init ops : PressureRuntime F).WellFormed :=
  (Machine.run_invariant MemoryPressure.step
    (I := fun rt : PressureRuntime F => rt.WellFormed ∧ BudgetsValid rt)
    (fun _ op _ h => ⟨h.1.step h.2 op, budgetsValid_step h.2 op⟩)
    ⟨wellFormed_init, budgetsValid_init⟩).1

/-- **Every published snapshot is well formed**, whatever was called and whatever
was reported. An entry's capacities and its reserve follow from the budget where the
budget governs; its free bytes and its utilization follow from its usable capacity and
its committed bytes everywhere. -/
theorem published_well_formed (ops : List (Op F)) {pub : Published F}
    (hpub : pub ∈ publishedBy PressureRuntime.init ops) : pub.snapshot.WellFormed := by
  obtain ⟨before, op, after, -, hop⟩ := Machine.exists_step_of_mem_outputs step hpub
  obtain ⟨nowMs, polls, log, -, -, rfl⟩ := step_publishes hop
  exact wellFormed_published (PressureRuntime.wellFormed_run before) (budgetsValid_run before)

/-- Half of the host memory. -/
def halfHost : DomainObservation ℚ :=
  { id := { high := 0, low := 1 }, type := .hostMemory, totalCapacity := 100, committed := 50 }

/-- An accelerator above its budget of 80. -/
def fullDevice : DomainObservation ℚ :=
  { id := { high := 0, low := 2 }, type := .acceleratorMemory, totalCapacity := 100,
    committed := 90 }

/-- A run in which a host and an accelerator are read, and then the accelerator's provider
is gone. -/
def halfGoneRun : List (Op ℚ) :=
  [.registerProvider "host", .registerProvider "cuda",
    .setBudget { high := 0, low := 2 } { hardCapacity := 80 },
    .refresh 1000 [{ name := "host", outcome := .returned { observations := [halfHost] } },
      { name := "cuda", outcome := .returned { observations := [fullDevice] } }],
    .refresh 2000 [{ name := "host", outcome := .returned { observations := [halfHost] } },
      { name := "cuda", outcome := .threw "gone" }]]

/-- The last snapshot of `halfGoneRun` carries both tiers, the accelerator as stale. -/
theorem published_well_formed_half_gone :
    ∃ pub ∈ publishedBy PressureRuntime.init halfGoneRun,
      pub.snapshot.domains.length = 2 ∧ pub.snapshot.partialData = true ∧
        pub.snapshot.WellFormed := by
  have hrun : ∃ pub ∈ publishedBy PressureRuntime.init halfGoneRun,
      pub.snapshot.domains.length = 2 ∧ pub.snapshot.partialData = true := by decide +kernel
  obtain ⟨pub, hpub, htwo, hpart⟩ := hrun
  exact ⟨pub, hpub, htwo, hpart, published_well_formed halfGoneRun hpub⟩

end MemoryPressure
