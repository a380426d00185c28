import MemoryPressure.OneWayLoad
import MemoryPressure.SyntheticCurves
import MemoryPressure.Telemetry

/-!
# A runtime with a synthetic provider (`synthetic.cpp`, `runtime.cpp`)

The provider and the runtime together: each refresh polls the provider, which ticks,
among any others and in any order, and other calls come in between.

- `Bench.step`: one call on the runtime, with the synthetic provider's answer put among
  those of the others. The provider ticks if polling gets as far as it.
- `Drive.Leaves`: nothing but the synthetic provider has to do with a domain: no other
  provider observes it, its budget stays, and `set_policy` is not called.
- `scenario_never_relieves`: under a scenario that never relieves a domain, its
  published level never falls.
- `scenario_settles`: once the scenario is at rest, its level moves one way.

**How the load reaches the level.** A refresh sees of the domain what the provider plays
on its tick, or nothing once the provider fails (`sightings_poll`). `Bench.Held` keeps what
is known of the domain: the scenario played, the budget in force, and a property of the
utilization and level of its entry under the thresholds in force (`Bench.Held.step`). The
properties are those of `OneWayLoad.lean`, on which side of the load the level is: `Below`
while the load rises, and either one once it is constant. So the laws of the classifier and
of its debounce machine are used as they stand, and nothing of the curves is known here but
that they rise or rest (`played_rises`, `played_settled`).

The tick of a settled scenario may be reached anywhere in the run, and the level may be on
either side of the load then. From that point on it goes one way and never turns: up if it
is below (`Bench.Held.along_below`), down if it is above (`Bench.Held.along_above`).

`simulate` of the command line is the case the runs after the theorems are about: its two
domains, its budgets and its loop are translated from `main.cpp`. Some of its scenarios
pressure groups that neither domain is in, and leave both at rest.
-/

namespace MemoryPressure

open SyntheticProvider (committedAt)
open Synthetic (Rises Settled)
open ExactDouble (val)

section

variable {F : Type} [CurveDouble F]

/-- A runtime and the synthetic provider it polls. -/
structure Bench (F : Type) [Double F] where
  provider : SyntheticProvider F
  runtime : PressureRuntime F

/-- What is called on the runtime: a refresh polls the synthetic provider between
others. -/
inductive Drive (F : Type) [Double F] where
  | call (op : Op F)
  | refresh (nowMs : UInt64) (before after : List (Poll F))

/-- How the synthetic provider answers. -/
def SyntheticProvider.poll (sp : SyntheticProvider F) (nowMs : UInt64) : Poll F :=
  { name := SyntheticProvider.name, outcome := .returned (sp.sample nowMs).1 }

namespace Bench

/-- The call as the runtime gets it. -/
def op (b : Bench F) : Drive F → Op F
  | .call op => op
  | .refresh nowMs before after => .refresh nowMs (before ++ b.provider.poll nowMs :: after)

/-- The provider after a call: it ticks if polling gets as far. -/
def ticked (b : Bench F) : Drive F → SyntheticProvider F
  | .call _ => b.provider
  | .refresh nowMs before _ =>
    if Completes before then (b.provider.sample nowMs).2 else b.provider

/-- One call. -/
def step (b : Bench F) (drive : Drive F) : Bench F × List (Published F) :=
  ({ provider := b.ticked drive, runtime := (MemoryPressure.step b.runtime (b.op drive)).1 },
    (MemoryPressure.step b.runtime (b.op drive)).2)

end Bench

/-- The call sets or clears the budget of a domain. -/
def Op.budgets (d : PressureDomainId) : Op F → Bool
  | .setBudget id _ | .clearBudget id => id = d
  | _ => false

/-- Nothing but the synthetic provider has to do with the domain. -/
def Drive.Leaves (d : PressureDomainId) : Drive F → Prop
  | .call op => op.setsPolicy = false ∧ op.isRefresh = false ∧ op.budgets d = false
  | .refresh _ before after => ∀ sight ∈ sightingsOf (before ++ after), sight.2.id ≠ d

/-- The only domain that a synthetic provider has under an id. -/
def SyntheticProvider.Only (sp : SyntheticProvider F) (d : PressureDomainId)
    (spec : SyntheticDomainSpec F) : Prop :=
  sp.domains.filter (fun s => s.present && s.id = d) = [spec]

/-- The utilization at which a domain is seen on a tick. -/
def played (sc : SyntheticScenario) (spec : SyntheticDomainSpec F) (budget : Option Budget)
    (tick : ℕ) : F :=
  utilizationFor (committedAt sc tick spec)
    (if isGoverned budget then (effectiveBudget budget).usableCapacity else spec.totalCapacity)

/-! ## One call -/

section

variable {b : Bench F} {drive : Drive F} {d : PressureDomainId} {spec : SyntheticDomainSpec F}

@[simp] theorem sample_scenario (sp : SyntheticProvider F) (nowMs : UInt64) :
    (sp.sample nowMs).2 = { sp with tick := sp.tick + 1 } := by
  unfold SyntheticProvider.sample
  dsimp only
  split_ifs <;> rfl

/-- A call changes nothing of the provider but its tick. -/
theorem Bench.ticked_eq (b : Bench F) (drive : Drive F) :
    ∃ n, b.provider.tick ≤ n ∧ b.ticked drive = { b.provider with tick := n } := by
  cases drive with
  | call op => exact ⟨_, le_refl _, rfl⟩
  | refresh nowMs before after =>
    rw [ticked]
    split_ifs
    · exact ⟨_, Nat.le_succ _, sample_scenario ..⟩
    · exact ⟨_, le_refl _, rfl⟩

/-- No call turns the scenario back. -/
theorem Bench.tick_le_step (b : Bench F) (drive : Drive F) :
    b.provider.tick ≤ (b.step drive).1.provider.tick := by
  obtain ⟨n, hn, hticked⟩ := b.ticked_eq drive
  have hprovider : (b.step drive).1.provider = { b.provider with tick := n } := hticked
  rw [hprovider]
  exact hn

theorem observe_only {sp : SyntheticProvider F} (honly : sp.Only d spec) (sc : SyntheticScenario)
    (tick : ℕ) (stale : Bool) (observedAt : UInt64) :
    ((sp.domains.filter SyntheticDomainSpec.present).map
        (SyntheticProvider.observe sc tick stale observedAt)).filter (fun obs => obs.id = d)
      = [SyntheticProvider.observe sc tick stale observedAt spec] := by
  rw [List.filter_map, List.filter_filter]
  have hsame : (sp.domains.filter fun s => s.id = d && s.present) = [spec] := by
    rw [← honly]
    exact List.filter_congr fun s _ => Bool.and_comm ..
  exact congrArg (List.map _) hsame

/-- What a sample says of a domain: nothing after the failure, else what is played. -/
theorem sample_observations {sp : SyntheticProvider F} (honly : sp.Only d spec) (nowMs : UInt64) :
    (sp.scenario = .providerFailure ∧
        (sp.sample nowMs).1.observations.filter (fun obs => obs.id = d) = []) ∨
      ∃ stale observedAt, (sp.sample nowMs).1.observations.filter (fun obs => obs.id = d)
        = [SyntheticProvider.observe sp.scenario sp.tick stale observedAt spec] := by
  by_cases hfail : sp.scenario = .providerFailure ∧ sp.tick ≥ sp.failureAfterSteps
  · refine Or.inl ⟨hfail.1, ?_⟩
    rw [SyntheticProvider.sample, if_pos hfail]
    rfl
  · right
    rw [SyntheticProvider.sample, if_neg hfail]
    exact ⟨_, _, observe_only honly ..⟩

/-- **What a refresh sees of the domain** is what the provider plays. -/
theorem sightings_poll {sp : SyntheticProvider F} (honly : sp.Only d spec) (nowMs : UInt64)
    {before after : List (Poll F)}
    (hleave : ∀ sight ∈ sightingsOf (before ++ after), sight.2.id ≠ d) :
    (sp.scenario = .providerFailure ∧
        sightingsFor d (sightingsOf (before ++ sp.poll nowMs :: after)) = []) ∨
      ∃ stale observedAt, sightingsFor d (sightingsOf (before ++ sp.poll nowMs :: after))
        = [(SyntheticProvider.name,
            SyntheticProvider.observe sp.scenario sp.tick stale observedAt spec)] := by
  have hnone : ∀ polls : List (Poll F), (∀ sight ∈ sightingsOf polls, sight.2.id ≠ d) →
      sightingsFor d (sightingsOf polls) = [] := fun polls h =>
    List.filter_eq_nil_iff.mpr fun sight hs => by simpa using h sight hs
  rw [sightingsOf, List.flatMap_append, List.forall_mem_append] at hleave
  have hothers := And.imp (hnone before) (hnone after) hleave
  have hpoll : sightingsFor d (sightingsOf (before ++ sp.poll nowMs :: after))
      = ((sp.sample nowMs).1.observations.filter (fun obs => obs.id = d)).map
          fun obs => (SyntheticProvider.name, obs) := by
    rw [sightingsOf, List.flatMap_append, List.flatMap_cons, sightingsFor, List.filter_append,
      List.filter_append]
    show sightingsFor d (sightingsOf before) ++ (_ ++ sightingsFor d (sightingsOf after)) = _
    rw [hothers.1, hothers.2, List.nil_append, List.append_nil, List.filter_map]
    rfl
  rw [hpoll]
  rcases sample_observations honly nowMs with ⟨hfail, hnone⟩ | ⟨stale, observedAt, hone⟩
  · exact Or.inl ⟨hfail, by rw [hnone, List.map_nil]⟩
  · exact Or.inr ⟨stale, observedAt, by rw [hone, List.map_singleton]⟩

/-- Calls that leave a domain alone keep its budget. -/
theorem lookup_budgets_step {rt : PressureRuntime F} {op : Op F} (hop : op.budgets d = false) :
    (MemoryPressure.step rt op).1.budgets.lookup d = rt.budgets.lookup d := by
  cases op with
  | setPolicy p =>
    have hbudgets := congrArg PressureRuntime.budgets (rt.setPolicy_eq p)
    exact congrArg (Finmap.lookup d) hbudgets
  | setBudget id bud =>
    have hne : d ≠ id := fun h => by simp [Op.budgets, h] at hop
    show (rt.setBudget id bud).budgets.lookup d = _
    unfold PressureRuntime.setBudget
    split_ifs
    · rfl
    · exact Finmap.lookup_insert_of_ne _ hne
  | clearBudget id =>
    have hne : d ≠ id := fun h => by simp [Op.budgets, h] at hop
    exact Finmap.lookup_erase_ne hne
  | setHistoryLimit | registerProvider => rfl
  | refresh nowMs polls =>
    show (rt.refresh nowMs polls).1.budgets.lookup d = _
    rcases rt.refresh_cases nowMs polls with ⟨log, hlog⟩ | ⟨-, log, heq⟩
    · rw [hlog.refresh_eq]
      rfl
    · rw [heq]
      rfl

/-- What the domain's calls look like to the runtime. -/
theorem leaves_op (hleave : drive.Leaves d) (honly : b.provider.Only d spec) :
    (b.op drive).setsPolicy = false ∧ (b.op drive).budgets d = false ∧
      (b.op drive).observes.count d ≤ 1 := by
  cases drive with
  | call op =>
    refine ⟨hleave.1, hleave.2.2, ?_⟩
    cases op with
    | refresh => cases hleave.2.1
    | _ => exact Nat.zero_le 1
  | refresh nowMs before after =>
    refine ⟨rfl, rfl, ?_⟩
    show List.count d (if _ then _ else _) ≤ 1
    split_ifs
    · rw [List.count_eq_countP, List.countP_map, List.countP_eq_length_filter]
      show (sightingsFor d (sightingsOf (before ++ b.provider.poll nowMs :: after))).length ≤ 1
      rcases sightings_poll honly nowMs hleave with ⟨-, hnone⟩ | ⟨stale, observedAt, hone⟩
      · rw [hnone]
        exact Nat.zero_le 1
      · rw [hone]
        exact le_refl 1
    · exact Nat.zero_le 1

end

/-! ## A domain on the bench -/

/-- A domain that only the synthetic provider has to do with, and its entry, which
satisfies `P` under the thresholds in force. -/
structure Bench.Held (P : Thresholds F → F → PressureLevel → Prop) (t : Thresholds F)
    (d : PressureDomainId) (spec : SyntheticDomainSpec F) (sc : SyntheticScenario)
    (budget : Option Budget) (b : Bench F) : Prop where
  scenario : b.provider.scenario = sc
  only : b.provider.Only d spec
  budget : b.runtime.budgets.lookup d = budget
  holds : Holds P t d b.runtime

section

variable {P : Thresholds F → F → PressureLevel → Prop} {t : Thresholds F} {d : PressureDomainId}
  {spec : SyntheticDomainSpec F} {sc : SyntheticScenario} {budget : Option Budget} {b : Bench F}
  {drive : Drive F}

theorem Bench.Held.id_eq (h : b.Held P t d spec sc budget) : spec.id = d := by
  have hmem : spec ∈ b.provider.domains.filter fun s => s.present && s.id = d :=
    h.only ▸ List.mem_singleton_self spec
  simpa using (Bool.and_eq_true_iff.mp (List.mem_filter.mp hmem).2).2

/-- What holds of everything a call publishes of the domain holds after it. -/
theorem Bench.Held.step (h : b.Held P t d spec sc budget) (hleave : drive.Leaves d)
    (hpub : ∀ pub ∈ (b.step drive).2, ∀ e ∈ pub.snapshot.entriesOf d, P t e.utilization e.level) :
    (b.step drive).1.Held P t d spec sc budget := by
  obtain ⟨hpol, hbud, hone⟩ := leaves_op hleave h.only
  obtain ⟨n, -, hticked⟩ := b.ticked_eq drive
  have hprovider : (b.step drive).1.provider = { b.provider with tick := n } := hticked
  exact
    { scenario := (congrArg SyntheticProvider.scenario hprovider).trans h.scenario
      only := by
        rw [hprovider]
        exact h.only
      budget := (lookup_budgets_step hbud).trans h.budget
      holds := h.holds.step hpol hone hpub }

/-- **What a call publishes of the domain**: a copy, and then the provider has
failed, or a reading of what is played on the tick. -/
theorem Bench.Held.entered (h : b.Held P t d spec sc budget) (hleave : drive.Leaves d)
    {pub : Published F} (hpub : pub ∈ (b.step drive).2) {e : DomainState F}
    (he : e ∈ pub.snapshot.entriesOf d) :
    ∃ nowMs polls, Entered d b.runtime nowMs polls e ∧
      (sightingsFor d (sightingsOf polls) = [] → sc = .providerFailure) ∧
      (∀ sight, sightingsFor d (sightingsOf polls) = [sight] →
        b.runtime.load sight = played sc spec budget b.provider.tick) ∧
      (b.step drive).1.provider.tick = b.provider.tick + 1 := by
  obtain ⟨-, -, hone⟩ := leaves_op hleave h.only
  obtain ⟨nowMs, polls, hop, hcompletes, hentered⟩ := entry_step h.holds.mirrors hone hpub he
  refine ⟨nowMs, polls, hentered, ?_⟩
  cases drive with
  | call op =>
    obtain rfl : op = .refresh nowMs polls := hop
    cases hleave.2.1
  | refresh now before after =>
    obtain ⟨rfl, rfl⟩ := (Op.refresh.injEq ..).mp hop
    have hbefore : Completes before := fun poll hpoll =>
      hcompletes poll (List.mem_append_left _ hpoll)
    have htick : (b.ticked (.refresh now before after)).tick = b.provider.tick + 1 := by
      rw [Bench.ticked, if_pos hbefore, sample_scenario]
    rcases sightings_poll h.only now hleave with ⟨hfail, hnone⟩ | ⟨stale, observedAt, hsight⟩
    · exact ⟨fun _ => h.scenario.symm.trans hfail,
        fun sight hsight => (by cases hnone.symm.trans hsight), htick⟩
    · refine ⟨fun hnone => (by cases hsight.symm.trans hnone), fun sight hone' => ?_, htick⟩
      obtain rfl := List.singleton_inj.mp (hsight.symm.trans hone')
      show utilizationFor _ (usableFor (b.runtime.budgets.lookup spec.id) _) = _
      rw [h.id_eq, h.budget, h.scenario]
      rfl

/-- Before the first refresh nothing is published of any domain. -/
theorem unseen_run {setup : List (Op F)} (hsetup : ∀ op ∈ setup, op.isRefresh = false) :
    (runFrom PressureRuntime.init setup : PressureRuntime F).domainStates.lookup d = none ∧
      (runFrom PressureRuntime.init setup : PressureRuntime F).currentSnapshot.entriesOf d
          = [] := by
  refine Machine.run_invariant MemoryPressure.step
    (I := fun rt : PressureRuntime F =>
      rt.domainStates.lookup d = none ∧ rt.currentSnapshot.entriesOf d = [])
    (fun rt op hop h => ?_) ⟨rfl, rfl⟩
  have hquiet := hsetup op hop
  cases op with
  | refresh => cases hquiet
  | setPolicy p =>
    show (rt.setPolicy p).domainStates.lookup d = none ∧
      (rt.setPolicy p).currentSnapshot.entriesOf d = []
    unfold PressureRuntime.setPolicy
    split_ifs
    · exact h
    · exact ⟨by rw [Keyed.lookup_mapVal, h.1]; rfl, h.2⟩
  | setBudget id bud =>
    show (rt.setBudget id bud).domainStates.lookup d = none ∧
      (rt.setBudget id bud).currentSnapshot.entriesOf d = []
    rw [rt.setBudget_eq id bud]
    exact h
  | clearBudget | setHistoryLimit | registerProvider => exact h

/-- What a bench set up without a refresh holds of every domain. -/
theorem Bench.held_start (P : Thresholds F → F → PressureLevel → Prop) {setup : List (Op F)}
    (hsetup : ∀ op ∈ setup, op.isRefresh = false) {sp : SyntheticProvider F}
    (honly : sp.Only d spec) :
    Bench.Held P (runFrom PressureRuntime.init setup).policy.thresholds d spec sp.scenario
      ((runFrom PressureRuntime.init setup).budgets.lookup d)
      { provider := sp, runtime := runFrom PressureRuntime.init setup } := by
  obtain ⟨hstate, hentries⟩ := unseen_run (d := d) hsetup
  refine ⟨rfl, honly, rfl, rfl, Or.inl ⟨hstate, hentries⟩, fun a ha => ?_⟩
  rw [hentries] at ha
  cases ha

/-- While the provider answers, what is published of the domain is a reading of what
is played. -/
theorem Bench.Held.read (h : b.Held P t d spec sc budget) (hlive : sc ≠ .providerFailure)
    (hleave : drive.Leaves d) {pub : Published F} (hpub : pub ∈ (b.step drive).2)
    {e : DomainState F} (he : e ∈ pub.snapshot.entriesOf d) :
    ∃ (m : HysteresisState F) (nowMs : UInt64),
      e.level = (m.read t (played sc spec budget b.provider.tick, nowMs)).current ∧
        ((b.runtime.currentSnapshot.entriesOf d = [] ∧ m.current = .normal) ∨
          ∃ a, b.runtime.currentSnapshot.entriesOf d = [a] ∧ a.level = m.current) := by
  obtain ⟨nowMs, polls, hentered, hfail, hload, -⟩ := h.entered hleave hpub he
  rcases hentered with ⟨-, hunseen, -, -, -⟩ | ⟨sight, m, hsight, hnil, hu, hnormal, hlevel⟩ |
    ⟨sight, a, m, hsight, hone, hu, hcar, hlevel⟩
  · exact absurd (hfail hunseen) hlive
  · rw [hu, hload sight hsight, h.holds.thresholds] at hlevel
    exact ⟨m, nowMs, hlevel, Or.inl ⟨hnil, hnormal⟩⟩
  · rw [hu, hload sight hsight, h.holds.thresholds] at hlevel
    exact ⟨m, nowMs, hlevel, Or.inr ⟨a, hone, hcar⟩⟩

/-- While the provider answers, the domain is in everything that is published. -/
theorem Bench.Held.entries_ne_nil (h : b.Held P t d spec sc budget)
    (hlive : sc ≠ .providerFailure) (hleave : drive.Leaves d) {pub : Published F}
    (hpub : pub ∈ (b.step drive).2) : pub.snapshot.entriesOf d ≠ [] := by
  obtain ⟨nowMs, polls, log, hop, hlog, rfl⟩ := step_publishes hpub
  cases drive with
  | call op =>
    obtain rfl : op = .refresh nowMs polls := hop
    cases hleave.2.1
  | refresh now before after =>
    obtain ⟨rfl, rfl⟩ := (Op.refresh.injEq ..).mp hop
    rcases sightings_poll h.only now hleave with ⟨hfail, -⟩ | ⟨stale, observedAt, hsight⟩
    · exact absurd (h.scenario.symm.trans hfail) hlive
    · rw [← hlog.sightings] at hsight
      rw [(PressureRuntime.entriesOf_seen b.runtime.policy b.runtime.budgets b.runtime now
        hsight).1]
      exact List.cons_ne_nil _ _

/-- The domain stays published, whether or not the call publishes anything. -/
theorem Bench.Held.stays (h : b.Held P t d spec sc budget) (hlive : sc ≠ .providerFailure)
    (hthere : b.runtime.currentSnapshot.entriesOf d ≠ []) (hleave : drive.Leaves d) :
    (b.step drive).1.runtime.currentSnapshot.entriesOf d ≠ [] := by
  rcases step_output b.runtime (b.op drive) with ⟨-, hcur⟩ | ⟨pub, hout, hcur⟩
  · have hcur' : (b.step drive).1.runtime.currentSnapshot = b.runtime.currentSnapshot := hcur
    rw [hcur']
    exact hthere
  · have hcur' : (b.step drive).1.runtime.currentSnapshot = pub.snapshot := hcur
    have hpub : pub ∈ (MemoryPressure.step b.runtime (b.op drive)).2 :=
      hout ▸ List.mem_singleton_self pub
    rw [hcur']
    exact h.entries_ne_nil hlive hleave hpub

variable {rest : F}

/-- **At rest below the load**, a level only rises. -/
theorem Bench.Held.rests_below (h : b.Held (fun t _ level => Below t rest level) t d spec sc budget)
    (hlive : sc ≠ .providerFailure) (hrest : played sc spec budget b.provider.tick = rest)
    (hleave : drive.Leaves d) :
    LevelRises d b.runtime (b.op drive) ∧
      ∀ pub ∈ (b.step drive).2, ∀ e ∈ pub.snapshot.entriesOf d, Below t rest e.level := by
  have hread : ∀ pub ∈ (b.step drive).2, ∀ e ∈ pub.snapshot.entriesOf d, Below t rest e.level ∧
      ∀ a ∈ b.runtime.currentSnapshot.entriesOf d, severityRank a.level ≤ severityRank e.level := by
    intro pub hpub e he
    obtain ⟨m, nowMs, hlevel, hbefore⟩ := h.read hlive hleave hpub he
    rw [hrest] at hlevel
    have hbelow : Below t rest m.current := by
      rcases hbefore with ⟨-, hnormal⟩ | ⟨a, hone, hcar⟩
      · exact hnormal ▸ below_normal t rest
      · exact hcar ▸ h.holds.entry a (hone ▸ List.mem_singleton_self a)
    obtain ⟨hup, hstill⟩ := Below.read (r := (rest, nowMs)) hbelow
    rw [hlevel]
    refine ⟨hstill, fun a ha => ?_⟩
    rcases hbefore with ⟨hnil, -⟩ | ⟨a', hone, hcar⟩
    · rw [hnil] at ha
      cases ha
    · rw [hone] at ha
      rw [List.mem_singleton.mp ha, hcar]
      exact hup
  exact ⟨fun pub hpub a ha e he => (hread pub hpub e he).2 a ha,
    fun pub hpub e he => (hread pub hpub e he).1⟩

/-- **At rest above the load**, a level only falls. -/
theorem Bench.Held.rests_above (h : b.Held (fun t _ level => Above t rest level) t d spec sc budget)
    (hthere : b.runtime.currentSnapshot.entriesOf d ≠ [])
    (hlive : sc ≠ .providerFailure) (hrest : played sc spec budget b.provider.tick = rest)
    (hleave : drive.Leaves d) :
    LevelFalls d b.runtime (b.op drive) ∧
      ∀ pub ∈ (b.step drive).2, ∀ e ∈ pub.snapshot.entriesOf d, Above t rest e.level := by
  have hread : ∀ pub ∈ (b.step drive).2, ∀ e ∈ pub.snapshot.entriesOf d, Above t rest e.level ∧
      ∀ a ∈ b.runtime.currentSnapshot.entriesOf d, severityRank e.level ≤ severityRank a.level := by
    intro pub hpub e he
    obtain ⟨m, nowMs, hlevel, hbefore⟩ := h.read hlive hleave hpub he
    rw [hrest] at hlevel
    rcases hbefore with ⟨hnil, -⟩ | ⟨a', hone, hcar⟩
    · exact absurd hnil hthere
    · have habove : Above t rest m.current :=
        hcar ▸ h.holds.entry a' (hone ▸ List.mem_singleton_self a')
      obtain ⟨hdown, hstill⟩ := Above.read (r := (rest, nowMs)) habove
      rw [hlevel, hone, List.forall_mem_singleton, hcar]
      exact ⟨hstill, hdown⟩
  exact ⟨fun pub hpub a ha e he => (hread pub hpub e he).2 a ha,
    fun pub hpub e he => (hread pub hpub e he).1⟩

/-- Below the rest of the scenario the level only rises. -/
theorem Bench.Held.along_below (h : b.Held (fun t _ level => Below t rest level) t d spec sc budget)
    (hlive : sc ≠ .providerFailure)
    (hplayed : ∀ tick, b.provider.tick ≤ tick → played sc spec budget tick = rest)
    {drives : List (Drive F)} (hdrives : ∀ drive ∈ drives, drive.Leaves d) :
    Machine.Along Bench.step (fun b drive => LevelRises d b.runtime (b.op drive)) b drives := by
  refine Machine.along_mono Bench.step (Q := fun _ drive => drive.Leaves d)
    (I := fun b' => b'.Held (fun t _ level => Below t rest level) t d spec sc budget ∧
      b.provider.tick ≤ b'.provider.tick)
    (fun b' drive hleave hb => ?_) (fun b' drive hb hleave => ?_) ⟨h, le_refl _⟩
    ((Machine.along_const_iff Bench.step).mpr hdrives)
  · exact ⟨hb.1.step hleave (hb.1.rests_below hlive (hplayed _ hb.2) hleave).2,
      hb.2.trans (b'.tick_le_step drive)⟩
  · exact (hb.1.rests_below hlive (hplayed _ hb.2) hleave).1

/-- Above the rest of the scenario the level only falls, once the domain is published. -/
theorem Bench.Held.along_above (h : b.Held (fun t _ level => Above t rest level) t d spec sc budget)
    (hthere : b.runtime.currentSnapshot.entriesOf d ≠ []) (hlive : sc ≠ .providerFailure)
    (hplayed : ∀ tick, b.provider.tick ≤ tick → played sc spec budget tick = rest)
    {drives : List (Drive F)} (hdrives : ∀ drive ∈ drives, drive.Leaves d) :
    Machine.Along Bench.step (fun b drive => LevelFalls d b.runtime (b.op drive)) b drives := by
  refine Machine.along_mono Bench.step (Q := fun _ drive => drive.Leaves d)
    (I := fun b' => (b'.Held (fun t _ level => Above t rest level) t d spec sc budget ∧
      b'.runtime.currentSnapshot.entriesOf d ≠ []) ∧ b.provider.tick ≤ b'.provider.tick)
    (fun b' drive hleave hb => ?_) (fun b' drive hb hleave => ?_) ⟨⟨h, hthere⟩, le_refl _⟩
    ((Machine.along_const_iff Bench.step).mpr hdrives)
  · obtain ⟨⟨hheld, hstill⟩, hlater⟩ := hb
    exact ⟨⟨hheld.step hleave (hheld.rests_above hstill hlive (hplayed _ hlater) hleave).2,
      hheld.stays hlive hstill hleave⟩, hlater.trans (b'.tick_le_step drive)⟩
  · exact (hb.1.1.rests_above hb.1.2 hlive (hplayed _ hb.2) hleave).1

end

/-! ## The command `simulate` -/

/-- The accelerator of `simulate` (main.cpp:250). -/
def simulateGpu : SyntheticDomainSpec ℚ :=
  { id := { high := 1, low := 1 }, type := .acceleratorMemory, group := "gpu",
    provider := "synthetic", totalCapacity := 32 * 1024 * 1024 * 1024 }

/-- The host of `simulate` (main.cpp:251). -/
def simulateHost : SyntheticDomainSpec ℚ :=
  { id := { high := 1, low := 2 }, type := .hostMemory, group := "host",
    provider := "synthetic", totalCapacity := 64 * 1024 * 1024 * 1024 }

/-- The synthetic provider that `simulate` registers (main.cpp:252). -/
def simulateProvider (sc : SyntheticScenario) : SyntheticProvider ℚ :=
  { domains := [simulateGpu, simulateHost], scenario := sc, failureAfterSteps := 4 }

/-- What `simulate` does before its loop (main.cpp:248–254). -/
def simulateSetup : List (Op ℚ) :=
  [.registerProvider SyntheticProvider.name,
    .setBudget simulateGpu.id
      { hardCapacity := 8 * 1024 * 1024 * 1024, emergencyReserveBytes := 1024 * 1024 * 1024 },
    .setBudget simulateHost.id { hardCapacity := 16 * 1024 * 1024 * 1024 }]

/-- The loop of `simulate` (main.cpp:258). -/
def simulateLoop (steps : ℕ) : List (Drive ℚ) :=
  (List.range steps).map fun i => .refresh (1000 + UInt64.ofNat i * 100) [] []

theorem leaves_simulateLoop (d : PressureDomainId) (steps : ℕ) :
    ∀ drive ∈ simulateLoop steps, drive.Leaves d := fun _ hmem => by
  obtain ⟨i, -, rfl⟩ := List.mem_map.mp hmem
  exact fun sight hs => by cases hs

theorem only_simulateGpu (sc : SyntheticScenario) :
    (simulateProvider sc).Only simulateGpu.id simulateGpu := rfl

/-! ## Scenarios that only rise -/

section

variable [ExactCurve F]

instance exact_isTrans : IsTrans F (· ≤ ·) where
  trans := fun a b c hab hbc =>
    (ExactDouble.val_le a c).mpr
      (((ExactDouble.val_le a b).mp hab).trans ((ExactDouble.val_le b c).mp hbc))

variable {sc : SyntheticScenario} {spec : SyntheticDomainSpec F} {budget : Option Budget}
  {m n start : ℕ}

theorem utilizationFor_mono {committed more : UInt64} (h : committed ≤ more) (usable : UInt64) :
    (utilizationFor committed usable : F) ≤ utilizationFor more usable := by
  unfold utilizationFor
  rw [ExactDouble.val_le]
  split_ifs
  · exact le_refl _
  · simp only [ExactDouble.val_div, ExactDouble.val_ofUInt64]
    exact div_le_div_of_nonneg_right (Nat.cast_le.mpr (UInt64.le_iff_toNat_le.mp h))
      (Nat.cast_nonneg _)

/-- A scenario that never relieves a domain shows it at no lower utilization. -/
theorem played_rises (h : Rises spec sc) (hmn : m ≤ n) :
    played sc spec budget m ≤ played sc spec budget n :=
  utilizationFor_mono (SyntheticProvider.committedAt_rises h hmn) _

/-- A scenario at rest shows the domain at one utilization. -/
theorem played_settled (h : Settled spec start sc) (hm : start ≤ m) (hn : start ≤ n) :
    played sc spec budget m = played sc spec budget n := by
  unfold played
  rw [SyntheticProvider.committedAt_settled h hm hn]

/-- The current entry of the domain was seen on a tick that is over. -/
def Bench.Seen (d : PressureDomainId) (spec : SyntheticDomainSpec F) (sc : SyntheticScenario)
    (budget : Option Budget) (b : Bench F) : Prop :=
  ∀ a ∈ b.runtime.currentSnapshot.entriesOf d, ∃ n < b.provider.tick,
    a.utilization = played sc spec budget n

variable {P : Thresholds F → F → PressureLevel → Prop} {t : Thresholds F} {d : PressureDomainId}
  {b : Bench F} {drive : Drive F}

/-- **A call under a scenario that only rises** does not lower the utilization. -/
theorem Bench.Seen.step (hseen : b.Seen d spec sc budget) (h : b.Held P t d spec sc budget)
    (hrises : Rises spec sc) (hleave : drive.Leaves d) :
    LoadRises d b.runtime (b.op drive) ∧ (b.step drive).1.Seen d spec sc budget := by
  have hshown : ∀ pub ∈ (b.step drive).2, ∀ e ∈ pub.snapshot.entriesOf d,
      (∃ n < (b.step drive).1.provider.tick, e.utilization = played sc spec budget n) ∧
        ∀ a ∈ b.runtime.currentSnapshot.entriesOf d, a.utilization ≤ e.utilization := by
    intro pub hpub e he
    obtain ⟨nowMs, polls, hentered, -, hload, htick⟩ := h.entered hleave hpub he
    have hread : ∀ sight, sightingsFor d (sightingsOf polls) = [sight] →
        e.utilization = b.runtime.load sight →
        (∃ n < (b.step drive).1.provider.tick, e.utilization = played sc spec budget n) ∧
          ∀ a ∈ b.runtime.currentSnapshot.entriesOf d, a.utilization ≤ e.utilization := by
      intro sight hsight hu
      rw [hload sight hsight] at hu
      refine ⟨⟨b.provider.tick, by omega, hu⟩, fun a ha => ?_⟩
      obtain ⟨n, hn, ha⟩ := hseen a ha
      rw [ha, hu]
      exact played_rises hrises hn.le
    rcases hentered with ⟨a, -, hone, -, hu⟩ | ⟨sight, -, hsight, -, hu, -, -⟩ |
      ⟨sight, -, -, hsight, -, hu, -, -⟩
    · obtain ⟨n, hn, ha⟩ := hseen a (hone ▸ List.mem_singleton_self a)
      rw [hone, List.forall_mem_singleton, hu]
      exact ⟨⟨n, by omega, ha⟩, (ExactDouble.val_le _ _).mpr (le_refl _)⟩
    · exact hread sight hsight hu
    · exact hread sight hsight hu
  refine ⟨fun pub hpub a ha e he => (hshown pub hpub e he).2 a ha, ?_⟩
  rcases step_output b.runtime (b.op drive) with ⟨-, hcur⟩ | ⟨pub, hout, hcur⟩
  · intro a ha
    have hcur' : (b.step drive).1.runtime.currentSnapshot = b.runtime.currentSnapshot := hcur
    rw [hcur'] at ha
    obtain ⟨n, hn, hu⟩ := hseen a ha
    obtain ⟨k, hk, hticked⟩ := b.ticked_eq drive
    have hprovider : (b.step drive).1.provider = { b.provider with tick := k } := hticked
    exact ⟨n, hprovider ▸ hn.trans_le hk, hu⟩
  · intro a ha
    have hcur' : (b.step drive).1.runtime.currentSnapshot = pub.snapshot := hcur
    rw [hcur'] at ha
    exact (hshown pub (hout ▸ List.mem_singleton_self pub) a ha).1

/-- From anywhere on, a scenario that only rises does not lower the level of a domain that
nothing else has to do with. -/
theorem Bench.Held.along_rises (h : b.Held Below t d spec sc budget)
    (hseen : b.Seen d spec sc budget) (hrises : Rises spec sc) {drives : List (Drive F)}
    (hdrives : ∀ drive ∈ drives, drive.Leaves d) :
    Machine.Along Bench.step (fun b drive => LevelRises d b.runtime (b.op drive)) b drives := by
  refine Machine.along_mono Bench.step (Q := fun _ drive => drive.Leaves d)
    (I := fun b => b.Held Below t d spec sc budget ∧ b.Seen d spec sc budget)
    (fun b drive hleave h => ?_) (fun b drive h hleave => ?_) ⟨h, hseen⟩
    ((Machine.along_const_iff Bench.step).mpr hdrives)
  · obtain ⟨hload, hseen⟩ := h.2.step h.1 hrises hleave
    obtain ⟨-, -, hone⟩ := leaves_op hleave h.1.only
    exact ⟨h.1.step hleave (h.1.holds.rises hone hload).2, hseen⟩
  · obtain ⟨-, -, hone⟩ := leaves_op hleave h.1.only
    exact (h.1.holds.rises hone (h.2.step h.1 hrises hleave).1).1

/-- **A scenario that only rises never relieves.** Set up a runtime in any way, and
register a synthetic provider whose scenario never relieves one of its domains. As
long as nothing else has to do with that domain, its level never falls from one
published snapshot to the next: whatever else is polled, called, thrown or retained,
and whatever the capacities, the budget and the policy are. -/
theorem scenario_never_relieves {setup : List (Op F)}
    (hsetup : ∀ op ∈ setup, op.isRefresh = false) {sp : SyntheticProvider F}
    (honly : sp.Only d spec) (hrises : Rises spec sp.scenario) {drives : List (Drive F)}
    (hdrives : ∀ drive ∈ drives, drive.Leaves d) :
    Machine.Along Bench.step (fun b drive => LevelRises d b.runtime (b.op drive))
      { provider := sp, runtime := runFrom PressureRuntime.init setup } drives := by
  refine (Bench.held_start Below hsetup honly).along_rises (fun a ha => ?_) hrises hdrives
  rw [(unseen_run hsetup).2] at ha
  cases ha

/-- The accelerator of `simulate` fills up. -/
theorem scenario_never_relieves_simulate :
    let start : Bench ℚ := { provider := simulateProvider .gradualGrowth,
                             runtime := runFrom PressureRuntime.init simulateSetup }
    Machine.Along Bench.step (fun b drive => LevelRises simulateGpu.id b.runtime (b.op drive)) start
        (simulateLoop 60) ∧
      (Machine.outputs Bench.step start (simulateLoop 5)).map
          (fun pub => pub.snapshot.levelOf simulateGpu.id)
        = [some .normal, some .elevated, some .elevated, some .elevated, some .exhausted] := by
  intro start
  exact ⟨scenario_never_relieves (by decide +kernel) (only_simulateGpu .gradualGrowth) trivial
    (leaves_simulateLoop _ 60), by decide +kernel⟩

/-- From a settled tick on, the level of the domain goes one way: up to the rest of the
scenario if it is below, and down to it otherwise. -/
theorem Bench.Held.along_settled (h : b.Held (fun _ _ _ => True) t d spec sc budget)
    (hlive : sc ≠ .providerFailure) (hsettled : Settled spec b.provider.tick sc)
    {drives : List (Drive F)} (hdrives : ∀ drive ∈ drives, drive.Leaves d) :
    Machine.Along Bench.step (fun b drive => LevelRises d b.runtime (b.op drive)) b drives ∨
      Machine.Along Bench.step (fun b drive => LevelFalls d b.runtime (b.op drive)) b drives := by
  have hplayed : ∀ tick, b.provider.tick ≤ tick →
      played sc spec budget tick = played sc spec budget b.provider.tick :=
    fun tick hle => played_settled hsettled hle (le_refl _)
  by_cases hbelow : ∀ a ∈ b.runtime.currentSnapshot.entriesOf d,
      Below t (played sc spec budget b.provider.tick) a.level
  · left
    exact Bench.Held.along_below
      ⟨h.scenario, h.only, h.budget, h.holds.thresholds, h.holds.mirrors, hbelow⟩ hlive hplayed
      hdrives
  · right
    push Not at hbelow
    obtain ⟨a, ha, hnot⟩ := hbelow
    -- the entry that is not below is the only one
    have habove : ∀ a' ∈ b.runtime.currentSnapshot.entriesOf d,
        Above t (played sc spec budget b.provider.tick) a'.level := by
      rcases h.holds.mirrors with ⟨-, hnil⟩ | ⟨-, pd, -, hone, -⟩
      · rw [hnil] at ha
        cases ha
      · rw [hone, List.forall_mem_singleton]
        rw [hone, List.mem_singleton] at ha
        exact ha ▸ (not_le.mp hnot).le
    exact Bench.Held.along_above
      ⟨h.scenario, h.only, h.budget, h.holds.thresholds, h.holds.mirrors, habove⟩
      (List.ne_nil_of_mem ha) hlive hplayed hdrives

/-- **A scenario at rest moves every level one way.** Let such a bench run to where
the scenario, unless it is the failing one, changes nothing any more for the domain.
From there on its published level only rises or only falls. -/
theorem scenario_settles {setup : List (Op F)} (hsetup : ∀ op ∈ setup, op.isRefresh = false)
    {sp : SyntheticProvider F} (honly : sp.Only d spec) (hlive : sp.scenario ≠ .providerFailure)
    {before after : List (Drive F)} (hdrives : ∀ drive ∈ before ++ after, drive.Leaves d)
    (hsettled : Settled spec (Machine.run Bench.step
      { provider := sp, runtime := runFrom PressureRuntime.init setup } before).provider.tick
      sp.scenario) :
    Machine.Along Bench.step (fun b drive => LevelRises d b.runtime (b.op drive))
        (Machine.run Bench.step
          { provider := sp, runtime := runFrom PressureRuntime.init setup } before) after ∨
      Machine.Along Bench.step (fun b drive => LevelFalls d b.runtime (b.op drive))
        (Machine.run Bench.step
          { provider := sp, runtime := runFrom PressureRuntime.init setup } before) after := by
  have hheld := Machine.run_invariant Bench.step
    (fun b drive (hmem : drive ∈ before) h => h.step (hdrives drive (List.mem_append_left _ hmem))
      fun _ _ _ _ => trivial)
    (Bench.held_start (fun _ _ _ => True) hsetup honly)
  exact hheld.along_settled hlive hsettled fun drive hmem =>
    hdrives drive (List.mem_append_right _ hmem)

/-- The accelerator of `simulate --scenario slow-recovery` after 120 steps. -/
theorem scenario_settles_simulate :
    let start : Bench ℚ := { provider := simulateProvider .slowRecovery,
                             runtime := runFrom PressureRuntime.init simulateSetup }
    Machine.Along Bench.step (fun b drive => LevelRises simulateGpu.id b.runtime (b.op drive))
        (Machine.run Bench.step start (simulateLoop 120)) (simulateLoop 60) ∨
      Machine.Along Bench.step (fun b drive => LevelFalls simulateGpu.id b.runtime (b.op drive))
        (Machine.run Bench.step start (simulateLoop 120)) (simulateLoop 60) := by
  intro start
  refine scenario_settles (by decide +kernel) (only_simulateGpu .slowRecovery) (by decide)
    (fun drive hmem => ?_) ?_
  · exact (List.mem_append.mp hmem).elim (leaves_simulateLoop _ _ drive)
      (leaves_simulateLoop _ _ drive)
  · show 120 ≤ _
    decide +kernel

end

end

end MemoryPressure
