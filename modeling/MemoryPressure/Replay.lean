import MemoryPressure.Republish

/-!
# Trace replay (`trace.h`, `trace.cpp`)

A run is recorded as one frame per completed refresh and replayed through a
`TraceProvider` on a fresh runtime. The provider always answers `Healthy`, so a
domain missing from a frame is removed in the replay, whatever kept it in the
original: the replay publishes the original levels exactly when the original
run never retained a domain (`replay_iff`).

- `recordOp`, `record`: what a frame takes from a refresh: its time, the observations and
  the answers of the providers. `TraceProvider::sample` reads the first two.
- `replayFrames_eq`: the provider hands out the frames in their order, each once, so that
  the replay is a list of refreshes with one poll each.
- `aligned_replay`: original and replay, as runs of one machine each, are aligned call by
  call; what is not recorded publishes nothing.
- `replay_step`: one recorded refresh and its replay. If the original retains nothing, both
  publish the same of every domain (`agree_replayed`) and go on in agreement; if it retains
  a domain, the replay has removed that one (`retained_not_replayed`), and the two
  snapshots differ at once.

Agreement is that of `Agreement.lean` for every domain, with the provider's name left out,
since in a replay every domain is the trace provider's. The induction along the aligned
runs gives both directions: as long as nothing is retained the levels agree, and the first
refresh that retains something is the first snapshot that differs.

Levels are compared, and with them which domains there are. Flags, warnings and the
providers' health are not: a replay has one provider, and it is healthy. Both runs are
under one configuration, which no recorded call changes.
-/

namespace MemoryPressure

variable {F : Type} [Double F]

/-- `TraceFrame` (trace.h:12). -/
structure TraceFrame (F : Type) [Double F] where
  timestampMs : UInt64 := 0
  observations : List (DomainObservation F) := []
  providerHealth : Finmap (fun _ : String => ProviderStatus) := ∅

/-- `PressureTrace` (trace.h:19). -/
structure PressureTrace (F : Type) [Double F] where
  policyVersion : UInt64 := 1
  frames : List (TraceFrame F) := []

/-- `TraceProvider` (trace.h:27): the trace, if any, and `index_`. -/
structure TraceProvider (F : Type) [Double F] where
  trace : Option (PressureTrace F)
  index : Nat := 0

namespace TraceProvider

/-- `TraceProvider::name` (trace.h:32). -/
def name : String := "trace"

/-- `TraceProvider::sample` (trace.cpp:8): the next frame's observations; the
frame's health map is looped over and not used. -/
def sample (tp : TraceProvider F) (nowMs : UInt64) : ProviderSample F × TraceProvider F :=
  match tp.trace.bind fun trace => trace.frames[tp.index]? with
  | none => ({ status := .healthy, sampledAtMs := nowMs }, tp)
  | some frame =>
    ({ status := .healthy, observations := frame.observations, sampledAtMs := nowMs },
      { tp with index := tp.index + 1 })

end TraceProvider

/-! ## Recording and replaying -/

/-- The frame recorded of a completed refresh. -/
def frameOf (nowMs : UInt64) (polls : List (Poll F)) : TraceFrame F where
  timestampMs := nowMs
  observations := (sightingsOf polls).map Prod.snd
  providerHealth := healthAfter ∅ polls

/-- What is recorded of one call. -/
def recordOp : Op F → Option (TraceFrame F)
  | .refresh nowMs polls => if Completes polls then some (frameOf nowMs polls) else none
  | _ => none

/-- The trace recorded of a run. -/
def record (version : UInt64) (ops : List (Op F)) : PressureTrace F where
  policyVersion := version
  frames := ops.filterMap recordOp

/-- One refresh per frame at the frame's timestamp, polling the trace provider
alone. -/
def replayFrames (tp : TraceProvider F) : List (TraceFrame F) → List (Op F)
  | [] => []
  | frame :: frames =>
    let answer := tp.sample frame.timestampMs
    .refresh frame.timestampMs [{ name := TraceProvider.name, outcome := .returned answer.1 }]
      :: replayFrames answer.2 frames

/-- The calls of a replay: register a provider on the trace, then replay it. -/
def replay (trace : PressureTrace F) : List (Op F) :=
  .registerProvider TraceProvider.name :: replayFrames { trace := some trace } trace.frames

/-- The replay of one frame. -/
def replayFrame (frame : TraceFrame F) : Op F :=
  .refresh frame.timestampMs
    [{ name := TraceProvider.name
       outcome := .returned
        { status := .healthy, observations := frame.observations
          sampledAtMs := frame.timestampMs } }]

/-- The provider hands out the frames in order, each once. -/
theorem replayFrames_eq (trace : PressureTrace F) (done todo : List (TraceFrame F))
    (h : trace.frames = done ++ todo) :
    replayFrames { trace := some trace, index := done.length } todo = todo.map replayFrame := by
  induction todo generalizing done with
  | nil => rfl
  | cons frame todo ih =>
    have hnext : trace.frames[done.length]? = some frame := by simp [h]
    have hrest := ih (done ++ [frame]) (by simp [h])
    rw [List.length_append, List.length_singleton] at hrest
    rw [replayFrames, List.map_cons]
    simp only [TraceProvider.sample, Option.bind_some, hnext, hrest]
    rfl

/-! ## Original and replay in lockstep -/

/-- The call configures the runtime. -/
def Op.configures : Op F → Bool
  | .setPolicy _ | .setBudget _ _ | .clearBudget _ => true
  | _ => false

/-- The call is a refresh that completes and is recorded, or the call publishes
and configures nothing. -/
theorem record_cases {op : Op F} (hop : op.configures = false) :
    (∃ nowMs polls, op = .refresh nowMs polls ∧ Completes polls ∧
        recordOp op = some (frameOf nowMs polls)) ∨
      (recordOp op = none ∧ ∀ d, Elsewhere d op) := by
  cases op with
  | setPolicy | setBudget | clearBudget => cases hop
  | setHistoryLimit | registerProvider => exact Or.inr ⟨rfl, fun _ => trivial⟩
  | refresh nowMs polls =>
    by_cases hc : Completes polls
    · exact Or.inl ⟨nowMs, polls, rfl, hc, if_pos hc⟩
    · exact Or.inr ⟨if_neg hc, fun _ => hc⟩

/-- A recorded refresh and the replay of its frame. -/
def Replays (op op' : Op F) : Prop :=
  ∃ nowMs polls, op = .refresh nowMs polls ∧ Completes polls ∧
    op' = replayFrame (frameOf nowMs polls)

/-- A run and the replay of its record are aligned. -/
theorem aligned_replay {ops : List (Op F)} (hops : ∀ op ∈ ops, op.configures = false) :
    Machine.Aligned Replays (fun op => ∀ d, Elsewhere d op) (fun _ => False) ops
      ((ops.filterMap recordOp).map replayFrame) := by
  induction ops with
  | nil => exact .nil
  | cons op ops ih =>
    have hrest := ih fun o ho => hops o (List.mem_cons_of_mem op ho)
    rcases record_cases (hops op (List.mem_cons_self ..)) with
      ⟨nowMs, polls, hop, hc, hrec⟩ | ⟨hrec, helse⟩
    · rw [List.filterMap_cons_some hrec, List.map_cons]
      exact .both ⟨nowMs, polls, hop, hc, rfl⟩ hrest
    · rw [List.filterMap_cons_none hrec]
      exact .left helse hrest

/-- A refresh that retains nothing: every published domain it does not observe
has a provider that answers `healthy` or `partial`. -/
def RetainsNothing (rt : PressureRuntime F) : Op F → Prop
  | .refresh nowMs polls =>
    Completes polls → ∀ pd ∈ rt.currentSnapshot.domains, pd.id ∉ (Op.refresh nowMs polls).observes →
      (healthFor (healthAfter rt.providerHealth polls) pd.provider).notFresh = false
  | _ => True

instance (rt : PressureRuntime F) (op : Op F) : Decidable (RetainsNothing rt op) :=
  match op with
  | .refresh _ polls => inferInstanceAs (Decidable (Completes polls →
      ∀ pd ∈ rt.currentSnapshot.domains, _ → _))
  | .setPolicy _ | .setBudget _ _ | .clearBudget _ | .setHistoryLimit _ | .registerProvider _ =>
    inferInstanceAs (Decidable True)

/-- In a replay every domain comes from the trace provider. -/
def FromTrace (_ p' : String) : Prop := p' = TraceProvider.name

/-- Two publications have the same domains at the same levels. -/
def SameLevels (pub pub' : Published F) : Prop :=
  ∀ d, pub.snapshot.levelOf d = pub'.snapshot.levelOf d

section

open PressureRuntime (CompletesWith published)

variable {a b : PressureRuntime F} {nowMs : UInt64} {polls : List (Poll F)} {log log' : PollLog F}

/-- The one poll of a replayed frame. -/
def framePolls (nowMs : UInt64) (polls : List (Poll F)) : List (Poll F) :=
  [{ name := TraceProvider.name
     outcome := .returned
      { status := .healthy, observations := (frameOf nowMs polls).observations
        sampledAtMs := nowMs } }]

/-- The replayed refresh sees what the original saw, from the trace provider. -/
theorem sightingsOf_framePolls (nowMs : UInt64) (polls : List (Poll F)) :
    sightingsOf (framePolls nowMs polls)
      = (sightingsOf polls).map fun sight => (TraceProvider.name, sight.2) := by
  simp [sightingsOf, framePolls, SampleOutcome.observations, frameOf, List.map_flatMap,
    Function.comp_def]

theorem sightings_replayed (d : PressureDomainId) (nowMs : UInt64) (polls : List (Poll F)) :
    SameSightings FromTrace (sightingsFor d (sightingsOf polls))
      (sightingsFor d (sightingsOf (framePolls nowMs polls))) := by
  rw [sightingsOf_framePolls, sightingsFor, sightingsFor, List.filter_map, SameSightings,
    List.forall₂_map_right_iff]
  exact List.forall₂_same.mpr fun _ _ => ⟨rfl, rfl⟩

/-- The trace provider is always fresh. -/
theorem trace_fresh (hb : Sound b) (hlog' : CompletesWith b nowMs (framePolls nowMs polls) log') :
    (healthFor log'.health TraceProvider.name).notFresh = false := by
  rw [hlog'.health, hb.health, healthFor_healthAfter]
  rfl

theorem unseen_of_notMem (hlog : CompletesWith a nowMs polls log) {d : PressureDomainId}
    (hd : d ∉ (Op.refresh nowMs polls).observes) : sightingsFor d log.sightings = [] :=
  not_not.mp (mt PressureRuntime.mem_observedIds.mpr (observes_of_completes hlog ▸ hd))

/-- A refresh that retains nothing and its replay publish the same of every
domain. -/
theorem agree_replayed (hb : Sound b) (h : ∀ d, Agree FromTrace d a b)
    (hlog : CompletesWith a nowMs polls log)
    (hlog' : CompletesWith b nowMs (framePolls nowMs polls) log')
    (hnone : RetainsNothing a (.refresh nowMs polls)) (d : PressureDomainId) :
    Agree FromTrace d (PressureRuntime.refreshed a.policy a.budgets a nowMs log)
        (PressureRuntime.refreshed b.policy b.budgets b nowMs log') ∧
      List.Forall₂ (SameState FromTrace)
        ((published a.policy a.budgets a nowMs log).snapshot.entriesOf d)
        ((published b.policy b.budgets b nowMs log').snapshot.entriesOf d) := by
  refine (h d).refresh hlog hlog' (sightings_replayed d nowMs polls) ?_
  intro hunseen x hx y _ hxy
  obtain ⟨hmem, hid⟩ := Snapshot.mem_entriesOf.mp hx
  have hnot : x.id ∉ (Op.refresh nowMs polls).observes := by
    rw [observes_of_completes hlog, hid]
    exact fun hobs => PressureRuntime.mem_observedIds.mp hobs (hlog.sightings ▸ hunseen)
  rw [hxy.provider, trace_fresh hb hlog', hlog.health]
  exact hnone hlog.completes x hmem hnot

/-- A domain the original retains is missing from the replay. -/
theorem retained_not_replayed (hb : Sound b) (h : ∀ d, Agree FromTrace d a b)
    (hlog : CompletesWith a nowMs polls log)
    (hlog' : CompletesWith b nowMs (framePolls nowMs polls) log') {pd : DomainState F}
    (hpd : pd ∈ a.currentSnapshot.domains) (hnot : pd.id ∉ (Op.refresh nowMs polls).observes)
    (hstale : (healthFor (healthAfter a.providerHealth polls) pd.provider).notFresh = true) :
    (published a.policy a.budgets a nowMs log).snapshot.levelOf pd.id ≠ none ∧
      (published b.policy b.budgets b nowMs log').snapshot.levelOf pd.id = none := by
  have hunseen := unseen_of_notMem hlog hnot
  have hunseen' : sightingsFor pd.id log'.sightings = [] := by
    have hsame := sightings_replayed pd.id nowMs polls
    rw [← hlog.sightings, hunseen] at hsame
    rw [hlog'.sightings]
    exact List.forall₂_nil_left_iff.mp hsame
  -- the original still has the entry; in the replay every entry is the
  -- trace provider's, which is fresh, so an unseen one is dropped
  constructor
  · have hkept : pd ∈ (a.currentSnapshot.entriesOf pd.id).filter fun x =>
        (healthFor log.health x.provider).notFresh :=
      List.mem_filter.mpr ⟨Snapshot.mem_entriesOf.mpr ⟨hpd, rfl⟩, hlog.health ▸ hstale⟩
    rw [Snapshot.levelOf_eq_head?,
      (PressureRuntime.entriesOf_unseen a.policy a.budgets a nowMs hunseen).1]
    intro hnil
    rw [Option.map_eq_none_iff, List.head?_eq_none_iff, List.map_eq_nil_iff] at hnil
    rw [hnil] at hkept
    cases hkept
  · have htrace : ∀ y ∈ b.currentSnapshot.entriesOf pd.id, y.provider = TraceProvider.name :=
      ((List.forall₂_and_left _ _).mp
        ((List.Forall₂.flip (R := fun y x => SameState FromTrace x y) (h pd.id).entries).imp
          fun _ _ hxy => ⟨hxy.provider, hxy⟩)).1
    have hempty : (b.currentSnapshot.entriesOf pd.id).filter (fun y =>
        (healthFor log'.health y.provider).notFresh) = [] :=
      List.filter_eq_nil_iff.mpr fun y hy => by
        rw [htrace y hy, trace_fresh hb hlog']
        exact Bool.false_ne_true
    rw [Snapshot.levelOf_eq_head?,
      (PressureRuntime.entriesOf_unseen b.policy b.budgets b nowMs hunseen').1, hempty]
    rfl

end

/-- **One refresh and its replay**: they publish the same levels exactly when the
original retains nothing, and then go on in agreement. -/
theorem replay_step {a b : PressureRuntime F} (hb : Sound b)
    (h : ∀ d, Agree FromTrace d a b) {op op' : Op F} (hop : Replays op op') :
    (step a op).2.length = (step b op').2.length ∧
      (List.Forall₂ SameLevels (step a op).2 (step b op').2 ↔ RetainsNothing a op) ∧
      (RetainsNothing a op → ∀ d, Agree FromTrace d (step a op).1 (step b op').1) := by
  obtain ⟨nowMs, polls, rfl, hc, rfl⟩ := hop
  obtain ⟨log, hlog⟩ := (a.refresh_cases nowMs polls).resolve_right fun hno => hno.1 hc
  have hc' : Completes (framePolls nowMs polls) := by
    simp [Completes, framePolls, SampleOutcome.escapes]
  obtain ⟨log', hlog'⟩ := (b.refresh_cases nowMs (framePolls nowMs polls)).resolve_right
    fun hno => hno.1 hc'
  have hstep : step a (.refresh nowMs polls) = _ := hlog.refresh_eq
  have hstep' : step b (replayFrame (frameOf nowMs polls)) = _ := hlog'.refresh_eq
  rw [hstep, hstep']
  refine ⟨rfl, ⟨fun hsame _ pd hpd hnot => ?_, fun hnone => ?_⟩, fun hnone d =>
    (agree_replayed hb h hlog hlog' hnone d).1⟩
  -- a retained domain would be in the original only
  · obtain ⟨hlevels, -⟩ := List.forall₂_cons.mp hsame
    by_contra hstale
    obtain ⟨hthere, hgone⟩ := retained_not_replayed hb h hlog hlog' hpd hnot
      (Bool.not_eq_false _ ▸ hstale)
    exact hthere ((hlevels pd.id).trans hgone)
  · exact .cons (fun d => levelOf_eq_of_entries (agree_replayed hb h hlog hlog' hnone d).2) .nil

/-- Configuring calls leave a runtime that has seen nothing so. -/
theorem unseen_config {config : List (Op F)} (hconfig : ∀ op ∈ config, op.configures = true) :
    publishedBy PressureRuntime.init config = [] ∧
      (∀ d, (runFrom PressureRuntime.init config).domainStates.lookup d = none) ∧
      (runFrom PressureRuntime.init config).currentSnapshot.domains = [] := by
  have hquiet : ∀ (rt : PressureRuntime F), ∀ op ∈ config, (step rt op).2 = [] := by
    intro rt op hop
    have hcfg := hconfig op hop
    cases op with
    | refresh | setHistoryLimit | registerProvider => cases hcfg
    | _ => rfl
  refine ⟨?_, ?_⟩
  · refine List.eq_nil_iff_forall_not_mem.mpr ?_
    intro pub hpub
    obtain ⟨pre, op, post, rfl, hstep⟩ := Machine.exists_step_of_mem_outputs step hpub
    rw [hquiet _ op (by simp)] at hstep
    cases hstep
  · refine Machine.run_invariant step
      (I := fun rt : PressureRuntime F => (∀ d, rt.domainStates.lookup d = none) ∧
        rt.currentSnapshot.domains = []) (fun rt op hop hI => ?_) ⟨fun d => rfl, rfl⟩
    refine ⟨fun d => ?_, by rw [currentSnapshot_of_quiet (hquiet rt op hop), hI.2]⟩
    have hcfg := hconfig op hop
    cases op with
    | refresh | setHistoryLimit | registerProvider => cases hcfg
    | clearBudget => exact hI.1 d
    | setBudget id b =>
      show (rt.setBudget id b).domainStates.lookup d = none
      rw [rt.setBudget_eq id b]
      exact hI.1 d
    | setPolicy p =>
      show (rt.setPolicy p).domainStates.lookup d = none
      unfold PressureRuntime.setPolicy
      split_ifs
      · exact hI.1 d
      · rw [Keyed.lookup_mapVal, hI.1 d]
        rfl

/-- **When a trace replay reproduces the run.** Configure a runtime, run it under
that configuration and record it; configure a fresh runtime the same way and
replay the record. The replay publishes the same domains at the same levels,
snapshot by snapshot, exactly when no refresh of the original run retained a
domain. -/
theorem replay_iff (version : UInt64) (config ops : List (Op F))
    (hconfig : ∀ op ∈ config, op.configures = true)
    (hops : ∀ op ∈ ops, op.configures = false) :
    List.Forall₂ SameLevels (publishedBy PressureRuntime.init (config ++ ops))
        (publishedBy PressureRuntime.init (config ++ replay (record version ops)))
      ↔ Machine.Along step RetainsNothing (runFrom PressureRuntime.init config) ops := by
  obtain ⟨hout, hstates, hdomains⟩ := unseen_config hconfig
  have hframes : replayFrames { trace := some (record version ops) } (record version ops).frames
      = (ops.filterMap recordOp).map replayFrame :=
    replayFrames_eq (record version ops) [] _ rfl
  have hagree : ∀ d, Agree FromTrace d (runFrom PressureRuntime.init config)
      ((runFrom PressureRuntime.init config).registerProvider TraceProvider.name) := fun d => by
    have hentries : (runFrom PressureRuntime.init config).currentSnapshot.entriesOf d = [] := by
      rw [Snapshot.entriesOf, hdomains]
      rfl
    refine ⟨rfl, rfl, ?_, ?_⟩
    · show Option.Rel _ ((runFrom PressureRuntime.init config).domainStates.lookup d)
        ((runFrom PressureRuntime.init config).domainStates.lookup d)
      rw [hstates d]
      exact .none
    · show List.Forall₂ _ ((runFrom PressureRuntime.init config).currentSnapshot.entriesOf d)
        ((runFrom PressureRuntime.init config).currentSnapshot.entriesOf d)
      rw [hentries]
      exact .nil
  have hs := sound_run config
  unfold publishedBy at hout ⊢
  rw [Machine.outputs_append, Machine.outputs_append, hout, List.nil_append, List.nil_append,
    replay, hframes, Machine.outputs_cons]
  refine Machine.lockstep_iff step
    (R := fun a b : PressureRuntime F => Sound a ∧ Sound b ∧ ∀ d, Agree FromTrace d a b)
    (fun a b op op' hR hop => ?_) (fun a b op hR hop => ?_) (fun a b op' hR hop => hop.elim)
    (aligned_replay hops) ⟨hs, sound_step hs (.registerProvider TraceProvider.name), hagree⟩
  -- a recorded refresh against the replay of its frame
  -- a call that leaves no frame: it observes nothing and publishes nothing
  · obtain ⟨ha, hb, hall⟩ := hR
    obtain ⟨hlen, hiff, hkeep⟩ := replay_step hb hall hop
    exact ⟨hlen, hiff, fun hnone => ⟨sound_step ha op, sound_step hb op', hkeep hnone⟩⟩
  · obtain ⟨ha, hb, hall⟩ := hR
    have hone := elsewhere_step a (hop {})
    refine ⟨?_, hone.1, sound_step ha op, hb, fun d => ?_⟩
    · cases op with
      | refresh nowMs polls => exact fun hc => absurd hc (hop {})
      | _ => trivial
    · obtain ⟨-, hp, hbud, hst, hcur⟩ := elsewhere_step a (hop d)
      exact (hall d).of_eq hp hbud hst hcur rfl rfl rfl rfl

/-- A host at `committed` percent. -/
def hostPoll (committed : UInt64) : Poll ℚ :=
  { name := "host", outcome := .returned { observations :=
      [{ id := { high := 0, low := 1 }, type := .hostMemory, totalCapacity := 100,
         committed := committed }] } }

/-- A host under a budget that fills up and is then gone for good. -/
def goneRun : List (Op ℚ) :=
  [.registerProvider "host", .refresh 1000 [hostPoll 30], .refresh 2000 [hostPoll 60],
    .refresh 3000 [{ name := "host", outcome := .returned {} }]]

/-- The replay of `goneRun` goes through the same levels. -/
theorem replay_iff_gone :
    List.Forall₂ SameLevels
      (publishedBy PressureRuntime.init
        ([.setBudget { high := 0, low := 1 } { hardCapacity := 64 }] ++ goneRun))
      (publishedBy PressureRuntime.init
        ([.setBudget { high := 0, low := 1 } { hardCapacity := 64 }]
          ++ replay (record 1 goneRun))) :=
  (replay_iff 1 _ goneRun (by decide) (by decide)).mpr (by decide +kernel)

/-- A host whose provider throws at the second refresh. -/
def thrownRun : List (Op ℚ) :=
  [.registerProvider "host", .refresh 1000 [hostPoll 30],
    .refresh 2000 [{ name := "host", outcome := .threw "lost" }]]

/-- The refresh that throws in `thrownRun` retains the host; the replay of its record removes
it. -/
theorem replay_not_reproduced :
    Machine.Along step Legal PressureRuntime.init thrownRun ∧
      (∀ op ∈ thrownRun, op.configures = false ∧ op.observes.Nodup) ∧
      ¬ List.Forall₂ SameLevels (publishedBy PressureRuntime.init thrownRun)
        (publishedBy PressureRuntime.init (replay (record 1 thrownRun))) := by
  refine ⟨by decide +kernel, by decide +kernel, ?_⟩
  intro hsame
  have hlevels := levelsIn_eq (hsame.imp fun _ _ h => h { high := 0, low := 1 })
  revert hlevels
  decide +kernel

end MemoryPressure
