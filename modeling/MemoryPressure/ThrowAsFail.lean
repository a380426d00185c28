import MemoryPressure.RefreshSpec

/-!
# A sample that throws and one that fails (`runtime.cpp:188`)

`refresh` has two paths for a provider that gives nothing: the branch for the
status `Failed`, and the handler of a `std::exception`. The two leave logs that
are alike (`PollLog.Alike`): the same health, observations, flags and failure
count, and as many warnings. What they do not share is the event: the handler
makes none.

- `Alike.pollAll`: logs that are alike stay alike, whatever is polled after.
- `Alike.published`: so the rest of the refresh is the same.
- `throws_like_fails_iff`: the missing event is always seen, except where the
  refresh does not complete.

Two relations compare the refreshes. `SameRefresh` is the property asked for: the same
snapshot but for the texts of its warnings, the same retained states and telemetry, the
same events by type and domain. `MissesOneEvent` is what the code does where the refresh
completes (`throwing_misses_one_event`): all of that, with one `ProviderFailed` more in the
batch of the provider that returned `Failed`, and counted in its snapshot and ids. The
second excludes the first by a count of events, which gives the equivalence.

**Proof structure.** A poll is compared branch by branch once (`pollOne_throwing_failing`),
and the loop carries the comparison on. The rest of the refresh reads of the log only what
alike logs share, apart from its events and the number of its warnings, so it is rewritten
once as a function of those (`eq_withTexts`, `eventsAfterPolling_eq`).

Warning texts are set apart because the two paths word theirs differently.
-/

namespace MemoryPressure

variable {F : Type} [Double F]

/-! ## Logs that are alike -/

/-- Two logs that differ in their events and in the texts of their warnings only. -/
structure PollLog.Alike (log log' : PollLog F) : Prop where
  health : log.health = log'.health
  sightings : log.sightings = log'.sightings
  staleData : log.staleData = log'.staleData
  partialData : log.partialData = log'.partialData
  providerFailures : log.providerFailures = log'.providerFailures
  warnings : log.warnings.length = log'.warnings.length

namespace PollLog.Alike

variable {log log' : PollLog F}

theorem refl (log : PollLog F) : log.Alike log := ⟨rfl, rfl, rfl, rfl, rfl, rfl⟩

/-- Noting the status of a sample keeps logs alike. -/
theorem noteStatus (h : log.Alike log') (nowMs : UInt64) (name : String)
    (sample : ProviderSample F) :
    (log.noteStatus nowMs name sample).Alike (log'.noteStatus nowMs name sample) := by
  obtain ⟨hhealth, hsightings, hstale, hpartial, hfailures, hwarnings⟩ := h
  unfold PollLog.noteStatus
  cases sample.status with
  | healthy => exact ⟨hhealth, hsightings, hstale, hpartial, hfailures, hwarnings⟩
  | partialData => exact ⟨hhealth, hsightings, hstale, rfl, hfailures, hwarnings⟩
  | unavailable => exact ⟨hhealth, hsightings, hstale, rfl, hfailures, hwarnings⟩
  | stale =>
    refine ⟨hhealth, hsightings, rfl, hpartial, hfailures, ?_⟩
    simp only [List.length_append, hwarnings, List.length_singleton]
  | failed =>
    refine ⟨hhealth, hsightings, hstale, rfl, congrArg (· + 1) hfailures, ?_⟩
    simp only [List.length_append, hwarnings, List.length_singleton]

/-- How the polling of two logs that are alike goes: both end it alike. -/
def Ends (a b : Except (PollLog F) (PollLog F)) : Prop :=
  (∃ log log', a = .ok log ∧ b = .ok log' ∧ log.Alike log') ∨
    ∃ log log', a = .error log ∧ b = .error log' ∧ log.Alike log'

theorem of_ends_ok (h : Ends (.ok log) (.ok log')) : log.Alike log' := by
  rcases h with ⟨l, l', hl, hl', halike⟩ | ⟨l, l', hl, -⟩
  · rwa [Except.ok.inj hl, Except.ok.inj hl']
  · cases hl

theorem of_ends_error (h : Ends (.error log) (.error log')) : log.Alike log' := by
  rcases h with ⟨l, l', hl, -⟩ | ⟨l, l', hl, hl', halike⟩
  · cases hl
  · rwa [Except.error.inj hl, Except.error.inj hl']

/-- One poll. -/
theorem pollOne (h : log.Alike log') (nowMs : UInt64) (poll : Poll F) :
    Ends (MemoryPressure.pollOne nowMs log poll) (MemoryPressure.pollOne nowMs log' poll) := by
  obtain ⟨name, outcome⟩ := poll
  cases outcome with
  | returned sample =>
    obtain ⟨hhealth, hsightings, hstale, hpartial, hfailures, hwarnings⟩ :=
      h.noteStatus nowMs name sample
    refine Or.inl ⟨_, _, rfl, rfl, ?_, ?_, hstale, hpartial, hfailures, hwarnings⟩
    · exact congrArg (fun health => health.insert name sample.status) hhealth
    · exact congrArg (fun seen => seen ++ sample.observations.map fun obs => (name, obs)) hsightings
  | threw what =>
    refine Or.inl ⟨_, _, rfl, rfl, ?_, h.sightings, h.staleData, rfl, ?_, ?_⟩
    · exact congrArg (fun health => health.insert name .failed) h.health
    · exact congrArg (· + 1) h.providerFailures
    · simp only [List.length_append, h.warnings, List.length_singleton]
  | escaped => exact Or.inr ⟨log, log', rfl, rfl, h⟩

/-- **The polling loop keeps logs alike.** -/
theorem pollAll (h : log.Alike log') (nowMs : UInt64) (polls : List (Poll F)) :
    Ends (MemoryPressure.pollAll nowMs log polls) (MemoryPressure.pollAll nowMs log' polls) := by
  induction polls generalizing log log' with
  | nil => exact Or.inl ⟨log, log', rfl, rfl, h⟩
  | cons poll polls ih =>
    rw [MemoryPressure.pollAll, MemoryPressure.pollAll]
    rcases h.pollOne nowMs poll with ⟨l, l', hl, hl', hone⟩ | ⟨l, l', hl, hl', hone⟩
    · rw [hl, hl']
      exact ih hone
    · rw [hl, hl']
      exact Or.inr ⟨l, l', rfl, rfl, hone⟩

end PollLog.Alike

/-! ## The two ways to give nothing -/

/-- A provider whose sample threw a `std::exception`. -/
def Poll.throwing (name what : String) : Poll F := { name := name, outcome := .threw what }

/-- The provider of `Poll.throwing`, had it returned the status `Failed` with an error
text. -/
def Poll.failing (name error : String) (sampledAtMs : UInt64) : Poll F where
  name := name
  outcome := .returned { status := .failed, error := error, sampledAtMs := sampledAtMs }

section

variable {nowMs sampledAtMs : UInt64} {name what error : String}

/-- The handler and the branch for `Failed` leave logs that are alike. -/
theorem pollOne_throwing_failing {log log' : PollLog F} (h : log.Alike log') :
    PollLog.Alike.Ends (pollOne nowMs log (Poll.throwing name what))
      (pollOne nowMs log' (Poll.failing name error sampledAtMs)) := by
  refine Or.inl ⟨_, _, rfl, rfl, ?_, ?_, h.staleData, rfl, ?_, ?_⟩
  · exact congrArg (fun health => health.insert name .failed) h.health
  · exact h.sightings.trans (List.append_nil _).symm
  · exact congrArg (· + 1) h.providerFailures
  · show (log.warnings ++ [_]).length = (log'.warnings ++ [_]).length
    rw [List.length_append, List.length_append, h.warnings]
    rfl

/-- Two polling loops that differ in one provider, which throws in one and fails in the
other, leave logs that are alike. -/
theorem pollAll_throwing_failing {log log' : PollLog F} (h : log.Alike log')
    (before after : List (Poll F)) :
    PollLog.Alike.Ends (pollAll nowMs log (before ++ Poll.throwing name what :: after))
      (pollAll nowMs log' (before ++ Poll.failing name error sampledAtMs :: after)) := by
  induction before generalizing log log' with
  | nil =>
    rw [List.nil_append, List.nil_append, pollAll, pollAll]
    rcases pollOne_throwing_failing h with ⟨l, l', hl, hl', hone⟩ | ⟨l, l', hl, hl', hone⟩
    · rw [hl, hl']
      exact hone.pollAll nowMs after
    · rw [hl, hl']
      exact Or.inr ⟨l, l', rfl, rfl, hone⟩
  | cons poll before ih =>
    rw [List.cons_append, List.cons_append, pollAll, pollAll]
    rcases h.pollOne nowMs poll with ⟨l, l', hl, hl', hone⟩ | ⟨l, l', hl, hl', hone⟩
    · rw [hl, hl']
      exact ih hone
    · rw [hl, hl']
      exact Or.inr ⟨l, l', rfl, rfl, hone⟩

/-- A provider that throws a `std::exception` does not decide whether the polling
completes. -/
theorem completes_throwing (before after : List (Poll F)) :
    Completes (before ++ Poll.throwing name what :: after) ↔ Completes (before ++ after) := by
  simp [Completes, Poll.throwing, SampleOutcome.escapes, or_imp, forall_and]

theorem completes_failing (before after : List (Poll F)) :
    Completes (before ++ Poll.failing name error sampledAtMs :: after)
      ↔ Completes (before ++ after) := by
  simp [Completes, Poll.failing, SampleOutcome.escapes, or_imp, forall_and]

end

/-! ## The rest of the refresh -/

open PressureRuntime

/-- A snapshot without the texts of its warnings. -/
def Snapshot.withoutTexts (s : Snapshot F) : Snapshot F :=
  { s with warnings := s.warnings.map fun _ => "" }

/-- The events of a batch by type and domain. -/
def Published.kinds (pub : Published F) : List (PressureEventType × Option PressureDomainId) :=
  pub.events.map fun e => (e.type, e.domain)

/-- Two refreshes that are the same but for warning texts: the published snapshot,
the retained states, the telemetry and the events by type and domain. -/
structure SameRefresh (a b : PressureRuntime F × List (Published F)) : Prop where
  snapshots : (a.2.map fun pub => pub.snapshot.withoutTexts)
    = b.2.map fun pub => pub.snapshot.withoutTexts
  domainStates : a.1.domainStates = b.1.domainStates
  stats : a.1.stats = b.1.stats
  events : a.2.map Published.kinds = b.2.map Published.kinds

/-- Two refreshes that are the same but for warning texts and one `ProviderFailed`,
which only the second makes and counts. -/
structure MissesOneEvent (a b : PressureRuntime F × List (Published F)) : Prop where
  snapshots : (a.2.map fun pub => { pub.snapshot.withoutTexts with events := {} })
    = b.2.map fun pub => { pub.snapshot.withoutTexts with events := {} }
  domainStates : a.1.domainStates = b.1.domainStates
  stats : a.1.stats = b.1.stats
  events : ∃ pre post, a.2.map Published.kinds = [pre ++ post] ∧
    b.2.map Published.kinds = [pre ++ (.providerFailed, none) :: post]

section

variable (pol : PressurePolicy F) (budgets : Budgets) (rt : PressureRuntime F) (nowMs : UInt64)

/-- The events of a refresh that polling does not make. -/
def eventsAfterPolling (log : PollLog F) : List PressureEvent :=
  draftEvents pol budgets rt nowMs { log with events := [] }

theorem draftEvents_eq_append (log : PollLog F) :
    draftEvents pol budgets rt nowMs log
      = log.events ++ eventsAfterPolling pol budgets rt nowMs log := by
  unfold eventsAfterPolling draftEvents
  simp only [List.append_assoc, List.nil_append]
  rfl

theorem kinds_published (log : PollLog F) :
    (published pol budgets rt nowMs log).kinds
      = (log.events.map fun e => (e.type, e.domain))
        ++ (eventsAfterPolling pol budgets rt nowMs log).map fun e => (e.type, e.domain) := by
  show (stampIds _ _).map _ = _
  rw [map_stampIds fun _ _ => rfl, draftEvents_eq_append, List.map_append]

/-- Polling makes no event of a type that the telemetry counts. -/
theorem countP_draftEvents {polls : List (Poll F)} {log : PollLog F}
    (hevents : log.events = polls.flatMap (Poll.events nowMs)) {t : PressureEventType}
    (hfailed : t ≠ .providerFailed) (hstale : t ≠ .providerStale) :
    (draftEvents pol budgets rt nowMs log).countP (fun e => e.type = t)
      = (eventsAfterPolling pol budgets rt nowMs log).countP fun e => e.type = t := by
  rw [draftEvents_eq_append, List.countP_append, hevents, List.countP_eq_zero.mpr, Nat.zero_add]
  intro e he hcounted
  obtain ⟨poll, -, hpoll⟩ := List.mem_flatMap.mp he
  rcases (Poll.mem_events hpoll).2 with htype | htype
  · exact hfailed ((of_decide_eq_true hcounted).symm.trans htype)
  · exact hstale ((of_decide_eq_true hcounted).symm.trans htype)

namespace PollLog.Alike

variable {log log' : PollLog F}

/-- All of a log but its events and the texts of its warnings. -/
theorem eq_withTexts (h : log.Alike log') :
    log = { log' with events := log.events, warnings := log.warnings } := by
  obtain ⟨health, sightings, events, warnings, stale, partialData, failures⟩ := log
  obtain ⟨rfl, rfl, rfl, rfl, rfl, -⟩ := h
  rfl

/-- **After the polling, logs that are alike make the same of it.** -/
theorem eventsAfterPolling_eq (h : log.Alike log') :
    eventsAfterPolling pol budgets rt nowMs log
      = eventsAfterPolling pol budgets rt nowMs log' := by
  rw [h.eq_withTexts]
  rfl

theorem domainStates_eq (h : log.Alike log') :
    (refreshed pol budgets rt nowMs log).domainStates
      = (refreshed pol budgets rt nowMs log').domainStates := by
  rw [h.eq_withTexts]
  rfl

theorem snapshot_eq (h : log.Alike log') :
    { (published pol budgets rt nowMs log).snapshot.withoutTexts with events := {} }
      = { (published pol budgets rt nowMs log').snapshot.withoutTexts with events := {} } := by
  have htexts : log.warnings.map (fun _ => "") = log'.warnings.map (fun _ => "") := by
    rw [List.map_const', List.map_const', h.warnings]
  rw [h.eq_withTexts]
  unfold Snapshot.withoutTexts published draftSnapshot
  dsimp only
  rw [htexts]
  rfl

/-- Logs that are alike are counted the same in the telemetry, where what polling announces
is not counted. -/
theorem refreshStats_eq (h : log.Alike log') {polls polls' : List (Poll F)}
    (hevents : log.events = polls.flatMap (Poll.events nowMs))
    (hevents' : log'.events = polls'.flatMap (Poll.events nowMs)) :
    refreshStats pol budgets rt nowMs log = refreshStats pol budgets rt nowMs log' := by
  have hcount : ∀ t : PressureEventType, t ≠ .providerFailed → t ≠ .providerStale →
      (draftEvents pol budgets rt nowMs log).countP (fun e => e.type = t)
        = (draftEvents pol budgets rt nowMs log').countP fun e => e.type = t := by
    intro t hfailed hstale
    rw [countP_draftEvents pol budgets rt nowMs hevents hfailed hstale,
      countP_draftEvents pol budgets rt nowMs hevents' hfailed hstale,
      h.eventsAfterPolling_eq pol budgets rt nowMs]
  have hissued := hcount .backpressureIssued (by decide) (by decide)
  have hreclaim := hcount .reclaimRequested (by decide) (by decide)
  have hdemotion := hcount .demotionRequested (by decide) (by decide)
  unfold refreshStats
  dsimp only
  rw [hissued, hreclaim, hdemotion, h.eq_withTexts]
  rfl

end PollLog.Alike

end

/-! ## The two refreshes -/

section

variable (rt : PressureRuntime F) (nowMs sampledAtMs : UInt64) (before after : List (Poll F))
  (name what error : String)

theorem pollings_alike :
    PollLog.Alike.Ends
      (pollAll nowMs { health := rt.providerHealth } (before ++ Poll.throwing name what :: after))
      (pollAll nowMs { health := rt.providerHealth }
        (before ++ Poll.failing name error sampledAtMs :: after)) :=
  pollAll_throwing_failing (.refl _) before after

/-- **A refresh that completes misses one event** where a sample threw instead of
failing, and nothing else. -/
theorem throwing_misses_one_event (hc : Completes (before ++ after)) :
    MissesOneEvent (rt.refresh nowMs (before ++ Poll.throwing name what :: after))
      (rt.refresh nowMs (before ++ Poll.failing name error sampledAtMs :: after)) := by
  obtain ⟨log, hlog⟩ :=
    (rt.refresh_cases nowMs (before ++ Poll.throwing name what :: after)).resolve_right
      fun hcut => hcut.1 ((completes_throwing before after).mpr hc)
  obtain ⟨log', hlog'⟩ :=
    (rt.refresh_cases nowMs (before ++ Poll.failing name error sampledAtMs :: after)).resolve_right
      fun hcut => hcut.1 ((completes_failing before after).mpr hc)
  have halike : log.Alike log' := by
    have hends := pollings_alike rt nowMs sampledAtMs before after name what error
    rw [hlog.polled, hlog'.polled] at hends
    exact PollLog.Alike.of_ends_ok hends
  have hevents := (pollAll_adds hlog.polled).1
  have hevents' := (pollAll_adds hlog'.polled).1
  rw [List.nil_append] at hevents hevents'
  rw [hlog.refresh_eq, hlog'.refresh_eq]
  refine ⟨?_, ?_, ?_, ?_⟩
  · exact congrArg (fun s => [s]) (halike.snapshot_eq rt.policy rt.budgets rt nowMs)
  · exact halike.domainStates_eq rt.policy rt.budgets rt nowMs
  · exact halike.refreshStats_eq rt.policy rt.budgets rt nowMs hevents hevents'
  · refine ⟨(before.flatMap (Poll.events nowMs)).map fun e => (e.type, e.domain),
      ((after.flatMap (Poll.events nowMs)) ++
        eventsAfterPolling rt.policy rt.budgets rt nowMs log').map
          fun e => (e.type, e.domain), ?_, ?_⟩
    · rw [List.map_singleton, kinds_published, hevents, halike.eventsAfterPolling_eq]
      simp only [List.flatMap_append, List.flatMap_cons, List.map_append, List.append_assoc]
      rfl
    · rw [List.map_singleton, kinds_published, hevents']
      simp only [List.flatMap_append, List.flatMap_cons, List.map_append, List.append_assoc]
      rfl

/-- **A sample that throws is treated like one that fails exactly when the refresh does not
complete**: one that does misses the event, and publishes one less. The missing event is
the `ProviderFailed` that the branch for the status makes and the handler does not. -/
theorem throws_like_fails_iff :
    SameRefresh (rt.refresh nowMs (before ++ Poll.throwing name what :: after))
        (rt.refresh nowMs (before ++ Poll.failing name error sampledAtMs :: after)) ↔
      ¬ Completes (before ++ after) := by
  constructor
  · intro hsame hc
    obtain ⟨pre, post, hthrowing, hfailing⟩ :=
      (throwing_misses_one_event rt nowMs sampledAtMs before after name what error hc).events
    have hkinds := hsame.events
    rw [hthrowing, hfailing] at hkinds
    have hlen := congrArg List.length (List.singleton_inj.mp hkinds)
    rw [List.length_append, List.length_append, List.length_cons] at hlen
    omega
  · intro hc
    have hcut : ∀ polls : List (Poll F), ¬ Completes polls →
        ∃ log, pollAll nowMs { health := rt.providerHealth } polls = .error log ∧
          rt.refresh nowMs polls = (rt.cutShort log, []) := by
      intro polls hpolls
      rcases pollAll_spec nowMs polls { health := rt.providerHealth } with ⟨hdone, -⟩ |
        ⟨-, log, hlog⟩
      · exact absurd hdone hpolls
      · refine ⟨log, hlog, ?_⟩
        rw [refresh, refreshWith, hlog]
    obtain ⟨log, hlog, hrefresh⟩ :=
      hcut (before ++ Poll.throwing name what :: after) (mt (completes_throwing before after).mp hc)
    obtain ⟨log', hlog', hrefresh'⟩ := hcut (before ++ Poll.failing name error sampledAtMs :: after)
      (mt (completes_failing before after).mp hc)
    have hends := pollings_alike rt nowMs sampledAtMs before after name what error
    rw [hlog, hlog'] at hends
    rw [hrefresh, hrefresh']
    -- nothing is published, and the failures counted so far are as many
    refine ⟨rfl, rfl, ?_, rfl⟩
    show { rt.stats with providerFailures := rt.stats.providerFailures + log.providerFailures }
      = { rt.stats with providerFailures := rt.stats.providerFailures + log'.providerFailures }
    rw [(PollLog.Alike.of_ends_error hends).providerFailures]

end

/-- One provider that throws, and nothing else: its failure is not announced. -/
theorem throwing_not_announced :
    ¬ SameRefresh
      ((PressureRuntime.init : PressureRuntime ℚ).refresh 1000 [Poll.throwing "host" "boom"])
      ((PressureRuntime.init : PressureRuntime ℚ).refresh 1000
          [Poll.failing "host" "boom" 1000]) := by
  intro hsame
  exact absurd hsame.events (by decide +kernel)

end MemoryPressure
