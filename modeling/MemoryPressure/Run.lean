import MemoryPressure.Foundation.Machine
import MemoryPressure.RefreshSpec

/-!
# Runs of the runtime

A run is a list of calls on a `PressureRuntime` from construction, one after
the other; what it publishes is the list of snapshots and event batches of its
refreshes that complete. Runs are `Machine` runs of `step`, so an invariant is proved of one
step, with one case for each call, and holds of every run.

- `Legal`: a refresh polls the registered providers, each once. Nothing below
  needs it; it tells which runs the code can make, and the counterexamples of later modules
  are such runs.
- `Op.observes`: what a call observes, with multiplicity. Most of what is known about
  identities is about runs in which it repeats no id.
- `Sound`: what holds of a runtime after every run (`sound_run`): the health map is empty,
  every retained state belongs to a published domain, runs under the policy's debounce
  configuration and is at a known level.
- `step_publishes`, `step_output`: whatever a step publishes is published by a refresh that
  completes, and becomes current; `entries_step` is the rule for what holds of entries.
- `length_publishedBy`: there is one publication for each refresh that completes.
- `ids_nodup_refresh`: when a refresh publishes each id once.

Calls that only read (`current_snapshot`, `query`, `admit` and so on) are functions of a
snapshot and no steps of a run; in `Concurrency.lean` they are steps of a thread.
-/

namespace MemoryPressure

variable {F : Type} [Double F]

/-- The calls that change a runtime. The polls of a refresh are what the
registered providers answer, in the order of `providers_`. -/
inductive Op (F : Type) [Double F] where
  | setPolicy (p : PressurePolicy F)
  | setBudget (id : PressureDomainId) (b : Budget)
  | clearBudget (id : PressureDomainId)
  | setHistoryLimit (n : Nat)
  | registerProvider (name : String)
  | refresh (nowMs : UInt64) (polls : List (Poll F))

/-- One call: the runtime after it and what it publishes. -/
def step (rt : PressureRuntime F) : Op F → PressureRuntime F × List (Published F)
  | .setPolicy p => (rt.setPolicy p, [])
  | .setBudget id b => (rt.setBudget id b, [])
  | .clearBudget id => (rt.clearBudget id, [])
  | .setHistoryLimit n => (rt.setHistoryLimit n, [])
  | .registerProvider name => (rt.registerProvider name, [])
  | .refresh nowMs polls => rt.refresh nowMs polls

/-- The runtime after a list of calls. -/
abbrev runFrom (rt : PressureRuntime F) (ops : List (Op F)) : PressureRuntime F :=
  Machine.run step rt ops

/-- Everything a list of calls publishes, in order. -/
abbrev publishedBy (rt : PressureRuntime F) (ops : List (Op F)) : List (Published F) :=
  Machine.outputs step rt ops

/-- A refresh polls every registered provider once (runtime.cpp:182). -/
def Legal (rt : PressureRuntime F) : Op F → Prop
  | .refresh _ polls =>
    (polls.map Poll.name : Multiset String) = rt.providers.entries.map Sigma.snd
  | _ => True

instance (rt : PressureRuntime F) (op : Op F) : Decidable (Legal rt op) :=
  match op with
  | .refresh _ polls => inferInstanceAs (Decidable
      ((polls.map Poll.name : Multiset String) = rt.providers.entries.map Sigma.snd))
  | .setPolicy _ | .setBudget _ _ | .clearBudget _ | .setHistoryLimit _ | .registerProvider _ =>
    inferInstanceAs (Decidable True)

/-- The domains an operation observes, with multiplicity: those of a refresh
that completes. -/
def Op.observes : Op F → List PressureDomainId
  | .refresh _ polls => if Completes polls then (sightingsOf polls).map fun s => s.2.id else []
  | _ => []

/-- The operation is a refresh that no exception cuts short. -/
def Op.completes : Op F → Bool
  | .refresh _ polls => Completes polls
  | _ => false

/-- The operation is a call of `set_policy`, be its policy accepted or refused. -/
def Op.setsPolicy : Op F → Bool
  | .setPolicy _ => true
  | _ => false

/-! ## One refresh as a step -/

open PressureRuntime (CompletesWith refreshed published)

/-- Whatever a step publishes, a refresh that completes publishes. -/
theorem step_publishes {rt : PressureRuntime F} {op : Op F} {pub : Published F}
    (h : pub ∈ (step rt op).2) :
    ∃ nowMs polls log, op = .refresh nowMs polls ∧ CompletesWith rt nowMs polls log ∧
      pub = published rt.policy rt.budgets rt nowMs log := by
  cases op with
  | refresh nowMs polls =>
    change pub ∈ (rt.refresh nowMs polls).2 at h
    rcases rt.refresh_cases nowMs polls with ⟨log, hlog⟩ | ⟨-, log, heq⟩
    · rw [hlog.refresh_eq] at h
      exact ⟨nowMs, polls, log, rfl, hlog, List.mem_singleton.mp h⟩
    · rw [heq] at h
      cases h
  | _ => cases h

/-- A refresh that completes publishes once, and nothing else publishes. -/
theorem length_published_step (rt : PressureRuntime F) (op : Op F) :
    (step rt op).2.length = if op.completes then 1 else 0 := by
  cases op with
  | refresh nowMs polls =>
    show (rt.refresh nowMs polls).2.length = if decide (Completes polls) then 1 else 0
    rcases rt.refresh_cases nowMs polls with ⟨log, hlog⟩ | ⟨hnc, log, heq⟩
    · rw [hlog.refresh_eq, if_pos (decide_eq_true hlog.completes)]
      rfl
    · rw [heq, decide_eq_false hnc]
      rfl
  | _ => rfl

/-- **One publication for each completed refresh**, over every run. -/
theorem length_publishedBy (rt : PressureRuntime F) (ops : List (Op F)) :
    (publishedBy rt ops).length = ops.countP Op.completes := by
  induction ops generalizing rt with
  | nil => rfl
  | cons op ops ih =>
    rw [publishedBy, Machine.outputs_cons, List.length_append, length_published_step, ih,
      List.countP_cons, Nat.add_comm]

/-- What a completing refresh observes. -/
theorem observes_of_completes {rt : PressureRuntime F} {nowMs : UInt64} {polls : List (Poll F)}
    {log : PollLog F} (h : CompletesWith rt nowMs polls log) :
    (Op.refresh nowMs polls).observes = PressureRuntime.observedIds log := by
  rw [Op.observes, if_pos h.completes, h.observedIds_eq]

/-! ## What holds after every run -/

/-- What is true of a retained state under the debounce configuration in force. -/
structure DomainRuntimeState.Sound (cfg : HysteresisConfig F) (st : DomainRuntimeState F) :
    Prop where
  cfg : st.hysteresis.cfg = cfg
  resolved : st.hysteresis.level ≠ .unknown
  wf : st.hysteresis.Wf

theorem DomainRuntimeState.sound_new (cfg : HysteresisConfig F) (win : Nat) :
    (DomainRuntimeState.new cfg win).Sound cfg :=
  ⟨rfl, by simp, HysteresisState.wf_new cfg⟩

/-- An observation keeps a retained state sound. -/
theorem DomainRuntimeState.Sound.observe {cfg : HysteresisConfig F} {st : DomainRuntimeState F}
    (h : st.Sound cfg) (pol : PressurePolicy F) (budget : Option Budget) (nowMs : UInt64)
    (obs : DomainObservation F) : (st.observe pol budget nowMs obs).Sound cfg where
  cfg := (observe_cfg st obs).trans h.cfg
  resolved := by
    rw [observe_level]
    exact HysteresisState.update_level_ne_unknown h.resolved (rawLevel_ne_unknown _ _ _ _)
  wf := HysteresisState.wf_update (rawLevel_ne_unknown _ _ _ _)

/-- What is true of a runtime after every run. -/
structure Sound (rt : PressureRuntime F) : Prop where
  health : rt.providerHealth = ∅
  known : ∀ d ∈ rt.domainStates, d ∈ rt.currentSnapshot.ids
  states : ∀ d st, rt.domainStates.lookup d = some st → st.Sound rt.policy.hysteresis
  levels : ∀ ds ∈ rt.currentSnapshot.domains, ds.level ≠ .unknown

theorem sound_init : Sound (PressureRuntime.init : PressureRuntime F) where
  health := rfl
  known := fun d hd => absurd hd (Finmap.notMem_empty)
  states := fun d st h => by cases h
  levels := fun ds hds => by cases hds

/-- After a refresh the retained states are those of domains in its snapshot. -/
theorem known_refreshed {rt : PressureRuntime F}
    (h : ∀ d ∈ rt.domainStates, d ∈ rt.currentSnapshot.ids)
    {pol : PressurePolicy F} {budgets : Budgets} {nowMs : UInt64} {log : PollLog F}
    {d : PressureDomainId}
    (hd : d ∈ (refreshed pol budgets rt nowMs log).domainStates) :
    d ∈ (published pol budgets rt nowMs log).snapshot.ids := by
  rw [PressureRuntime.ids_published, List.mem_append]
  by_cases hobs : d ∈ PressureRuntime.observedIds log
  · exact Or.inl hobs
  -- an id nobody observed has a retained state because it was in the last snapshot
  · right
    have hnone : sightingsFor d log.sightings = [] :=
      not_not.mp (mt PressureRuntime.mem_observedIds.mpr hobs)
    rw [← Finmap.lookup_isSome, PressureRuntime.lookup_refreshed, hnone] at hd
    split_ifs at hd with hrem
    · cases hd
    · have hold : d ∈ rt.currentSnapshot.ids := h d (Finmap.lookup_isSome.mp hd)
      obtain ⟨pd, hpd, hid⟩ := List.mem_map.mp hold
      refine List.mem_map.mpr ⟨pd, List.mem_filter.mpr ⟨hpd, ?_⟩, hid⟩
      -- not removed, not observed: so its provider is not fresh
      have hkeep : removes log.health (PressureRuntime.observedIds log) pd = false :=
        Bool.eq_false_iff.mpr fun hc =>
          hrem (List.any_eq_true.mpr ⟨pd, by simp [Snapshot.entriesOf, hpd, hid], hc⟩)
      simpa [removes, retains, hid, hobs] using hkeep

/-- **A step keeps a runtime sound.** -/
theorem sound_step {rt : PressureRuntime F} (h : Sound rt) (op : Op F) :
    Sound (step rt op).1 := by
  cases op with
  | setBudget id b =>
    show Sound (rt.setBudget id b)
    rw [rt.setBudget_eq id b]
    exact ⟨h.health, h.known, h.states, h.levels⟩
  | clearBudget | setHistoryLimit | registerProvider =>
    exact ⟨h.health, h.known, h.states, h.levels⟩
  | setPolicy p =>
    show Sound (rt.setPolicy p)
    unfold PressureRuntime.setPolicy
    split_ifs
    · exact h
    -- a machine is rebuilt under the new configuration, at `normal`
    · refine ⟨h.health, fun d hd => h.known d ?_, fun d st hst => ?_, h.levels⟩
      · rw [← Finmap.lookup_isSome] at hd ⊢
        simpa using hd
      · rw [Keyed.lookup_mapVal, Option.map_eq_some_iff] at hst
        obtain ⟨st', -, rfl⟩ := hst
        exact ⟨rfl, by simp, HysteresisState.wf_new _⟩
  | refresh nowMs polls =>
    show Sound (rt.refresh nowMs polls).1
    rcases rt.refresh_cases nowMs polls with ⟨log, hlog⟩ | ⟨-, log, heq⟩
    · rw [hlog.refresh_eq]
      obtain ⟨hstates, hfresh⟩ := Keyed.feed_invariant
        (DomainRuntimeState.new rt.policy.hysteresis 16) (fun sight : Sighting F => sight.2.id)
        (interpretStep rt.policy rt.budgets nowMs)
        (P := DomainRuntimeState.Sound rt.policy.hysteresis) (Q := fun ds => ds.level ≠ .unknown)
        (DomainRuntimeState.sound_new _ _)
        (fun st sight hst =>
          have hst' := hst.observe rt.policy (rt.budgets.lookup sight.2.id) nowMs sight.2
          ⟨hst', hst'.resolved⟩) log.sightings rt.domainStates h.states
      -- the states and the entries of the observed domains come from one loop
      refine ⟨h.health, fun d => known_refreshed h.known, fun d st hst => ?_, fun ds hds => ?_⟩
      · rw [PressureRuntime.lookup_refreshed] at hst
        split_ifs at hst
        exact hstates d st ((Keyed.feed_lookup ..).trans hst)
      · obtain ⟨ds', hds', rfl⟩ := List.mem_map.mp hds
        rw [PressureRuntime.swept_domains, List.mem_append] at hds'
        rcases hds' with hf | hk
        -- observed, or retained from the last snapshot
        · exact hfresh ds' hf
        · obtain ⟨pd, hpd, rfl⟩ := List.mem_map.mp hk
          exact h.levels pd (List.mem_filter.mp hpd).1
    · rw [heq]
      exact ⟨h.health, h.known, h.states, h.levels⟩

/-- **Every run is sound.** -/
theorem sound_run (ops : List (Op F)) : Sound (runFrom PressureRuntime.init ops) :=
  Machine.run_invariant step (fun _ op _ h => sound_step h op) sound_init

/-! ## What a step publishes -/

/-- A step publishes nothing and keeps the current snapshot, or publishes one
snapshot, which becomes current. -/
theorem step_output (rt : PressureRuntime F) (op : Op F) :
    ((step rt op).2 = [] ∧ (step rt op).1.currentSnapshot = rt.currentSnapshot) ∨
      ∃ pub, (step rt op).2 = [pub] ∧ (step rt op).1.currentSnapshot = pub.snapshot := by
  cases op with
  | setPolicy p =>
    have hcurrent := congrArg PressureRuntime.currentSnapshot (rt.setPolicy_eq p)
    exact Or.inl ⟨rfl, hcurrent⟩
  | setBudget id b =>
    have hcurrent := congrArg PressureRuntime.currentSnapshot (rt.setBudget_eq id b)
    exact Or.inl ⟨rfl, hcurrent⟩
  | clearBudget | setHistoryLimit | registerProvider => exact Or.inl ⟨rfl, rfl⟩
  | refresh nowMs polls =>
    rcases rt.refresh_cases nowMs polls with ⟨log, hlog⟩ | ⟨-, log, heq⟩
    · refine Or.inr ⟨_, congrArg Prod.snd hlog.refresh_eq, ?_⟩
      show (rt.refresh nowMs polls).1.currentSnapshot = _
      rw [hlog.refresh_eq]
      rfl
    · refine Or.inl ⟨congrArg Prod.snd heq, ?_⟩
      show (rt.refresh nowMs polls).1.currentSnapshot = _
      rw [heq]
      rfl

/-- What a step publishes is current after it. -/
theorem current_of_published {rt : PressureRuntime F} {op : Op F} {pub : Published F}
    (h : pub ∈ (step rt op).2) : (step rt op).1.currentSnapshot = pub.snapshot := by
  rcases step_output rt op with ⟨hout, -⟩ | ⟨pub', hout, hcur⟩
  · rw [hout] at h
    cases h
  · rw [hout] at h
    rw [hcur, List.mem_singleton.mp h]

/-- A step keeps the current snapshot, or a refresh that completes replaces it. -/
theorem step_current (rt : PressureRuntime F) (op : Op F) :
    (step rt op).1.currentSnapshot = rt.currentSnapshot ∨
      ∃ nowMs polls log, op = .refresh nowMs polls ∧ CompletesWith rt nowMs polls log ∧
        (step rt op).1.currentSnapshot
          = (published rt.policy rt.budgets rt nowMs log).snapshot := by
  rcases step_output rt op with ⟨-, hcur⟩ | ⟨pub, hout, hcur⟩
  · exact Or.inl hcur
  · obtain ⟨nowMs, polls, log, hop, hlog, rfl⟩ :=
      step_publishes (show pub ∈ (step rt op).2 from hout ▸ List.mem_singleton_self pub)
    exact Or.inr ⟨nowMs, polls, log, hop, hlog, hcur⟩

/-- **What holds of every entry**: what is made of any observation, and kept by
retention and by the second pass, holds of the current entries after a step if
it did before. -/
theorem entries_step {P : DomainState F → Prop} {rt : PressureRuntime F}
    (hfresh : ∀ nowMs st sight, P (interpretStep rt.policy rt.budgets nowMs st sight).2)
    (hkeeper : ∀ nowMs ds, P ds → P (keeper nowMs ds))
    (hrespond : ∀ blocked ds, P ds → P (respond blocked ds))
    (h : ∀ ds ∈ rt.currentSnapshot.domains, P ds) (op : Op F) :
    ∀ ds ∈ (step rt op).1.currentSnapshot.domains, P ds := by
  rcases step_current rt op with hcur | ⟨nowMs, polls, log, -, -, hcur⟩
  · rw [hcur]
    exact h
  · rw [hcur]
    exact PressureRuntime.forall_published (hfresh nowMs)
      (fun pd hpd _ => hkeeper nowMs pd (h pd hpd)) hrespond

/-- A step that publishes nothing keeps the current snapshot. -/
theorem currentSnapshot_of_quiet {rt : PressureRuntime F} {op : Op F} (h : (step rt op).2 = []) :
    (step rt op).1.currentSnapshot = rt.currentSnapshot := by
  rcases step_output rt op with ⟨-, hcur⟩ | ⟨pub, hout, -⟩
  · exact hcur
  · rw [hout] at h
    cases h

/-- Over a snapshot that has each id once, a refresh publishes each id once
exactly when it observed each id once: what it retains was not observed. -/
theorem ids_published_nodup {rt : PressureRuntime F} (hnd : rt.currentSnapshot.ids.Nodup)
    {pol : PressurePolicy F} {budgets : Budgets} {nowMs : UInt64} {log : PollLog F} :
    (published pol budgets rt nowMs log).snapshot.ids.Nodup
      ↔ (PressureRuntime.observedIds log).Nodup := by
  rw [PressureRuntime.ids_published, List.nodup_append]
  refine ⟨fun h => h.1, fun h => ⟨h, ?_, fun a ha b hb => ?_⟩⟩
  · exact hnd.sublist (List.filter_sublist.map _)
  · obtain ⟨pd, hpd, rfl⟩ := List.mem_map.mp hb
    have hkeep := (List.mem_filter.mp hpd).2
    rintro rfl
    simp [retains, ha] at hkeep

/-- A step publishes each id once exactly when it observes each id once. -/
theorem step_ids_nodup_iff {rt : PressureRuntime F} (hnd : rt.currentSnapshot.ids.Nodup)
    (op : Op F) : (∀ pub ∈ (step rt op).2, pub.snapshot.ids.Nodup) ↔ op.observes.Nodup := by
  cases op with
  | refresh nowMs polls =>
    rcases rt.refresh_cases nowMs polls with ⟨log, hlog⟩ | ⟨hc, log, heq⟩
    · rw [observes_of_completes hlog, ← ids_published_nodup hnd]
      show (∀ pub ∈ (rt.refresh nowMs polls).2, _) ↔ _
      rw [hlog.refresh_eq]
      exact List.forall_mem_singleton
    · show (∀ pub ∈ (rt.refresh nowMs polls).2, _) ↔ _
      rw [heq, Op.observes, if_neg hc]
      simp
  | _ => simp [step, Op.observes]

/-- Current ids stay distinct over a step that observes no id twice. -/
theorem ids_nodup_step {rt : PressureRuntime F} (hnd : rt.currentSnapshot.ids.Nodup) {op : Op F}
    (hop : op.observes.Nodup) : (step rt op).1.currentSnapshot.ids.Nodup := by
  have hpubs := (step_ids_nodup_iff hnd op).mpr hop
  rcases step_output rt op with ⟨-, hcur⟩ | ⟨pub, hout, hcur⟩
  · exact hcur ▸ hnd
  · exact hcur ▸ hpubs pub (hout ▸ List.mem_singleton_self pub)

/-! ## A domain observed at most once -/

/-- A domain observed at most once is seen by one observation or by none. -/
theorem seen_or_unseen {rt : PressureRuntime F} {nowMs : UInt64} {polls : List (Poll F)}
    {log : PollLog F} (h : CompletesWith rt nowMs polls log) {d : PressureDomainId}
    (hop : (Op.refresh nowMs polls).observes.count d ≤ 1) :
    sightingsFor d log.sightings = [] ∨ ∃ sight, sightingsFor d log.sightings = [sight] := by
  have hlen : (sightingsFor d log.sightings).length ≤ 1 := by
    rw [observes_of_completes h, PressureRuntime.observedIds, List.count_eq_countP,
      List.countP_map, List.countP_eq_length_filter] at hop
    exact hop
  cases hs : sightingsFor d log.sightings with
  | nil => exact Or.inl rfl
  | cons sight rest =>
    rw [hs, List.length_cons] at hlen
    obtain rfl : rest = [] := List.eq_nil_of_length_eq_zero (by omega)
    exact Or.inr ⟨sight, rfl⟩

/-- A domain observed at most once at a time keeps at most one entry. -/
theorem entriesOf_length_step {rt : PressureRuntime F} {d : PressureDomainId}
    (hlen : (rt.currentSnapshot.entriesOf d).length ≤ 1) {op : Op F}
    (hop : op.observes.count d ≤ 1) :
    ((step rt op).1.currentSnapshot.entriesOf d).length ≤ 1 := by
  rcases step_current rt op with hcur | ⟨nowMs, polls, log, rfl, hlog, hcur⟩
  · rw [hcur]
    exact hlen
  · rw [hcur]
    rcases seen_or_unseen hlog hop with hun | ⟨sight, hseen⟩
    · rw [(PressureRuntime.entriesOf_unseen _ _ _ _ hun).1, List.length_map]
      exact le_trans (List.length_filter_le _ _) hlen
    · rw [(PressureRuntime.entriesOf_seen _ _ _ _ hseen).1, List.length_singleton]

end MemoryPressure
