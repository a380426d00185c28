import MemoryPressure.Run

/-!
# Retained states mirror the snapshot

`refresh` keeps two stores: the published entries and the retained per-domain
states. An observation writes both, an outage copies the entry and leaves the
state, a withdrawal drops both. Over a run that replaces no policy and observes
no id twice at a time, the two stay aligned domain by domain (`mirrorsAt_step`),
so nothing is retained for a domain that is gone and nothing is lost for one
that is still published (`retained_mirrors_snapshot`).

The invariant is about one domain, `MirrorsAt d`: none of either, or one of each, the state
carrying what the entry shows (`Carries`: the level, when it was entered, the peak). With
locality a refresh is then one of three cases for `d`, whatever else it does
(`MirrorsAt.refreshed_cases`), and the statement about the stores as wholes follows by
taking all domains together.

Both conditions are needed. A policy that is replaced recreates the machines and leaves the
entries, and of two observations of one id in a refresh the first is the entry that is found
while the state is that of the second.
-/

namespace MemoryPressure

variable {F : Type} [Double F]

/-- A retained state carries what a published entry shows of it. -/
structure Carries (st : DomainRuntimeState F) (ds : DomainState F) : Prop where
  level : ds.level = st.hysteresis.current
  enteredLevelAtMs : ds.enteredLevelAtMs = st.enteredLevelAtMs
  peakLevel : ds.peakLevel = st.peakLevelRank

/-- One domain's retained state and its entries: none of either, or one of each,
the state carrying the entry. -/
def MirrorsAt (d : PressureDomainId) (rt : PressureRuntime F) : Prop :=
  (rt.domainStates.lookup d = none ∧ rt.currentSnapshot.entriesOf d = []) ∨
    ∃ st pd, rt.domainStates.lookup d = some st ∧ rt.currentSnapshot.entriesOf d = [pd] ∧
      Carries st pd

/-- The retained states are those of the published domains, and carry what is
published of them. -/
structure Mirrors (rt : PressureRuntime F) : Prop where
  keys : ∀ d, d ∈ rt.domainStates ↔ d ∈ rt.currentSnapshot.ids
  entries : ∀ ds ∈ rt.currentSnapshot.domains,
    ∃ st, rt.domainStates.lookup ds.id = some st ∧ Carries st ds

/-- What an observation makes of a domain carries what it publishes. -/
theorem carries_interpretStep (pol : PressurePolicy F) (budgets : Budgets) (nowMs : UInt64)
    (st : DomainRuntimeState F) (sight : Sighting F) :
    Carries (interpretStep pol budgets nowMs st sight).1
      (interpretStep pol budgets nowMs st sight).2 := ⟨rfl, rfl, rfl⟩

/-- What is carried of an entry is carried of its stale copy, whatever the responses pass
writes on it. -/
theorem Carries.keeper {st : DomainRuntimeState F} {ds : DomainState F} (h : Carries st ds)
    (nowMs : UInt64) : Carries st (keeper nowMs ds) := ⟨h.level, h.enteredLevelAtMs, h.peakLevel⟩

theorem Carries.respond {st : DomainRuntimeState F} {ds : DomainState F} (h : Carries st ds)
    (blocked : Bool) : Carries st (respond blocked ds) :=
  ⟨h.level, h.enteredLevelAtMs, h.peakLevel⟩

open PressureRuntime (CompletesWith refreshed published entriesOf_seen entriesOf_unseen)

/-- **A refresh and one aligned domain**: observed at most once, it is gone,
retained as it was, or what its observation makes of its retained state. -/
theorem MirrorsAt.refreshed_cases {rt : PressureRuntime F} {d : PressureDomainId}
    (h : MirrorsAt d rt) {nowMs : UInt64} {polls : List (Poll F)} {log : PollLog F}
    (hlog : CompletesWith rt nowMs polls log)
    (hop : (Op.refresh nowMs polls).observes.count d ≤ 1) :
    let snapshot := (published rt.policy rt.budgets rt nowMs log).snapshot
    let states := (refreshed rt.policy rt.budgets rt nowMs log).domainStates
    (states.lookup d = none ∧ snapshot.entriesOf d = []) ∨
      (∃ st pd blocked, rt.domainStates.lookup d = some st ∧ Carries st pd ∧
        states.lookup d = some st ∧ snapshot.entriesOf d = [respond blocked (keeper nowMs pd)]) ∨
      ∃ sight blocked, sightingsFor d log.sightings = [sight] ∧
        states.lookup d = some (interpretStep rt.policy rt.budgets nowMs
          ((rt.domainStates.lookup d).getD (DomainRuntimeState.new rt.policy.hysteresis 16))
          sight).1 ∧
        snapshot.entriesOf d = [respond blocked (interpretStep rt.policy rt.budgets nowMs
          ((rt.domainStates.lookup d).getD (DomainRuntimeState.new rt.policy.hysteresis 16))
          sight).2] := by
  rcases seen_or_unseen hlog hop with hun | ⟨sight, hseen⟩
  · obtain ⟨hentries, hlookup⟩ := entriesOf_unseen rt.policy rt.budgets rt nowMs hun
    rcases h with ⟨hnone, hnil⟩ | ⟨st, pd, hst, hone, hcar⟩
    · -- nothing was published, so nothing is retained or removed
      rw [hnil] at hentries hlookup
      rw [hnone] at hlookup
      exact Or.inl ⟨hlookup, hentries⟩
    · rw [hone] at hentries hlookup
      rw [hst] at hlookup
      by_cases hph : (healthFor log.health pd.provider).notFresh = true
      · simp only [List.filter_cons, List.any_cons, hph, if_true] at hentries hlookup
        exact Or.inr (Or.inl ⟨st, pd, _, hst, hcar, hlookup, hentries⟩)
      · simp only [List.filter_cons, List.any_cons, hph] at hentries hlookup
        exact Or.inl ⟨hlookup, hentries⟩
  · obtain ⟨hentries, hlookup⟩ := entriesOf_seen rt.policy rt.budgets rt nowMs hseen
    exact Or.inr (Or.inr ⟨sight, _, hseen, hlookup, hentries⟩)

/-- **A step keeps one domain aligned**, whichever branch the domain takes:
observed, retained, removed, or not there. -/
theorem mirrorsAt_step {rt : PressureRuntime F} {d : PressureDomainId} (h : MirrorsAt d rt)
    {op : Op F} (hpol : op.setsPolicy = false) (hop : op.observes.count d ≤ 1) :
    MirrorsAt d (step rt op).1 := by
  cases op with
  | setPolicy p => cases hpol
  | setBudget id b =>
    show MirrorsAt d (rt.setBudget id b)
    rw [rt.setBudget_eq id b]
    exact h
  | clearBudget | setHistoryLimit | registerProvider => exact h
  | refresh nowMs polls =>
    show MirrorsAt d (rt.refresh nowMs polls).1
    rcases rt.refresh_cases nowMs polls with ⟨log, hlog⟩ | ⟨-, log, heq⟩
    · rw [hlog.refresh_eq]
      rcases h.refreshed_cases hlog hop with
        hgone | ⟨st, pd, blocked, -, hcar, hlookup, hentries⟩ |
            ⟨sight, blocked, -, hlookup, hentries⟩
      · exact Or.inl hgone
      · exact Or.inr ⟨st, _, hlookup, hentries, (hcar.keeper nowMs).respond blocked⟩
      · exact Or.inr ⟨_, _, hlookup, hentries, (carries_interpretStep ..).respond blocked⟩
    · rw [heq]
      exact h

/-- Every domain aligned: the two stores mirror each other. -/
theorem mirrors_of_mirrorsAt {rt : PressureRuntime F} (h : ∀ d, MirrorsAt d rt) : Mirrors rt := by
  constructor
  · intro d
    rw [← Finmap.lookup_isSome]
    rcases h d with ⟨hnone, hnil⟩ | ⟨st, pd, hst, hone, -⟩
    · rw [hnone]
      exact iff_of_false Bool.false_ne_true (Snapshot.entriesOf_eq_nil.mp hnil)
    · rw [hst]
      obtain ⟨hmem, rfl⟩ := Snapshot.mem_entriesOf.mp (hone ▸ List.mem_singleton_self pd)
      exact iff_of_true rfl (List.mem_map_of_mem hmem)
  · intro ds hds
    have hin : ds ∈ rt.currentSnapshot.entriesOf ds.id := Snapshot.mem_entriesOf.mpr ⟨hds, rfl⟩
    rcases h ds.id with ⟨-, hnil⟩ | ⟨st, pd, hst, hone, hcar⟩
    · rw [hnil] at hin
      cases hin
    · rw [hone] at hin
      obtain rfl := List.mem_singleton.mp hin
      exact ⟨st, hst, hcar⟩

/-- **Retained states mirror the snapshot.** In a run that replaces no policy and in which
no refresh observes an id twice, after every call the retained states are those of the
current snapshot's domains, observed or retained, and each has the level, the time it was
entered and the peak that are published. `set_policy` is left out because it rebuilds the
debounce machines at `Normal`, while the snapshot keeps the levels published before. -/
theorem retained_mirrors_snapshot (ops : List (Op F)) (hpol : ∀ op ∈ ops, op.setsPolicy = false)
    (hops : ∀ op ∈ ops, op.observes.Nodup) : Mirrors (runFrom PressureRuntime.init ops) := by
  refine mirrors_of_mirrorsAt ?_
  intro d
  refine Machine.run_invariant step (fun rt op hop h => ?_) (Or.inl ⟨rfl, rfl⟩)
  exact mirrorsAt_step h (hpol op hop) (List.nodup_iff_count_le_one.mp (hops op hop) d)

/-- A host seen at 95 percent, whose provider then fails. -/
def hostThenOutage : List (Op ℚ) :=
  [.registerProvider "host",
    .refresh 1000 [{ name := "host", outcome := .returned { observations :=
      [{ id := { high := 0, low := 1 }, type := .hostMemory, totalCapacity := 100,
         committed := 99 }] } }],
    .refresh 2000 [{ name := "host", outcome := .threw "gone" }]]

/-- The retained host keeps its exhausted level, since when, and its peak. -/
theorem retained_mirrors_snapshot_outage :
    (runFrom PressureRuntime.init hostThenOutage).currentSnapshot.domains.map
        (fun ds => (ds.level, ds.enteredLevelAtMs, ds.peakLevel)) = [(.exhausted, 1000, 4)] ∧
      Mirrors (runFrom PressureRuntime.init hostThenOutage) :=
  ⟨by decide +kernel,
    retained_mirrors_snapshot hostThenOutage (by decide +kernel) (by decide +kernel)⟩

end MemoryPressure
