import MemoryPressure.Runtime

/-!
# What one refresh does, phase by phase

One spec lemma for each loop of `refresh`, so that no later proof unfolds it:

- `pollAll_spec`, `pollAll_adds`: the log of a polling loop that completes, and what its
  polls add to the events and flags of it;
- `healthFor_healthAfter`: the health map, provider by provider;
- `swept_domains`, `ids_published`: what the retention loop keeps behind the fresh entries;
- `forall_published`: what holds of every published entry, from what an observation, a stale
  copy and the second pass make of it;
- `refresh_cases`: a refresh either completes on such a log or is cut short. In the first
  case it publishes exactly one snapshot with its batch, `published` of the log
  (`CompletesWith`), in the second nothing.

**Locality.** `entriesOf_published`, `lookup_refreshed` and `eventsOn_draftEvents` say the same
of the three things a refresh writes: the entries, the retained state and the events of one
domain come from that domain's own observations, previous entries and retained state. Other
domains reach the entries only through the responses, by whether a host-like tier is there
with room to spare. The special cases of a domain seen once and of one not seen
(`entriesOf_seen`, `entriesOf_unseen`) are the step lemmas of every invariant about single
domains in the modules that follow.
-/

namespace MemoryPressure

variable {F : Type} [Double F]

/-! ## Polling -/

/-- The observations of a list of polls, in polling order. -/
def sightingsOf (polls : List (Poll F)) : List (Sighting F) :=
  polls.flatMap fun poll => poll.outcome.observations.map fun obs => (poll.name, obs)

/-- The health map after a list of polls. -/
def healthAfter (health : Finmap (fun _ : String => ProviderStatus)) (polls : List (Poll F)) :
    Finmap (fun _ : String => ProviderStatus) :=
  polls.foldl (fun acc poll => acc.insert poll.name poll.outcome.health) health

/-- No sample ends in an exception that `refresh` lets through. -/
def Completes (polls : List (Poll F)) : Prop := ∀ poll ∈ polls, poll.outcome.escapes = false

instance (polls : List (Poll F)) : Decidable (Completes polls) :=
  inferInstanceAs (Decidable (∀ poll ∈ polls, poll.outcome.escapes = false))

/-- `log'` is `log` after polling `polls`; the events made on the way name no
domain. -/
structure PollLog.Polled (log log' : PollLog F) (polls : List (Poll F)) : Prop where
  sightings : log'.sightings = log.sightings ++ sightingsOf polls
  health : log'.health = healthAfter log.health polls
  events : (∀ e ∈ log.events, e.domain = none) → ∀ e ∈ log'.events, e.domain = none

theorem noteStatus_sightings (log : PollLog F) (nowMs : UInt64) (name : String)
    (sample : ProviderSample F) : (log.noteStatus nowMs name sample).sightings = log.sightings := by
  unfold PollLog.noteStatus
  cases sample.status <;> rfl

theorem noteStatus_health (log : PollLog F) (nowMs : UInt64) (name : String)
    (sample : ProviderSample F) : (log.noteStatus nowMs name sample).health = log.health := by
  unfold PollLog.noteStatus
  cases sample.status <;> rfl

theorem noteStatus_events {log : PollLog F} {nowMs : UInt64} {name : String}
    {sample : ProviderSample F} (h : ∀ e ∈ log.events, e.domain = none) :
    ∀ e ∈ (log.noteStatus nowMs name sample).events, e.domain = none := by
  unfold PollLog.noteStatus
  intro e he
  cases hs : sample.status with
  | healthy | partialData => exact h e (by simpa [hs] using he)
  | failed | stale | unavailable =>
    rw [hs] at he
    rcases List.mem_append.mp he with hold | hnew
    · exact h e hold
    · rw [List.mem_singleton.mp hnew]
      rfl

/-- A poll that does not escape extends the log by itself. -/
theorem pollOne_spec (nowMs : UInt64) (log : PollLog F) (poll : Poll F)
    (h : poll.outcome.escapes = false) :
    ∃ log', pollOne nowMs log poll = .ok log' ∧ log.Polled log' [poll] := by
  obtain ⟨name, outcome⟩ := poll
  cases outcome with
  | returned sample =>
    refine ⟨_, rfl, ?_, ?_, fun hev => noteStatus_events hev⟩
    · simp [sightingsOf, SampleOutcome.observations, noteStatus_sightings]
    · simp [healthAfter, SampleOutcome.health, noteStatus_health]
  | threw what =>
    refine ⟨_, rfl, ?_, rfl, id⟩
    simp [sightingsOf, SampleOutcome.observations]
  | escaped => cases h

/-- **The polling loop**: it completes exactly when no sample escapes, and then
the log holds every poll. -/
theorem pollAll_spec (nowMs : UInt64) (polls : List (Poll F)) (log : PollLog F) :
    (Completes polls ∧ ∃ log', pollAll nowMs log polls = .ok log' ∧ log.Polled log' polls) ∨
      (¬ Completes polls ∧ ∃ log', pollAll nowMs log polls = .error log') := by
  induction polls generalizing log with
  | nil => exact Or.inl ⟨by simp [Completes], log, rfl, ⟨by simp [sightingsOf], rfl, id⟩⟩
  | cons poll polls ih =>
    by_cases hesc : poll.outcome.escapes = false
    · obtain ⟨log₁, hone, hpolled⟩ := pollOne_spec nowMs log poll hesc
      have hcons : Completes (poll :: polls) ↔ Completes polls := by
        simp [Completes, hesc]
      simp only [pollAll, hone, hcons]
      rcases ih log₁ with ⟨hc, log₂, hok, hrest⟩ | ⟨hc, log₂, herr⟩
      · refine Or.inl ⟨hc, log₂, hok, ?_, ?_, fun hev => hrest.events (hpolled.events hev)⟩
        · rw [hrest.sightings, hpolled.sightings]
          simp [sightingsOf]
        · rw [hrest.health, hpolled.health]
          rfl
      · exact Or.inr ⟨hc, log₂, herr⟩
    · refine Or.inr ⟨fun hc => hesc (hc poll (List.mem_cons_self ..)), log, ?_⟩
      obtain ⟨name, outcome⟩ := poll
      cases outcome with
      | returned _ | threw _ => exact absurd rfl hesc
      | escaped => rfl

/-- The events one poll makes. -/
def Poll.events (nowMs : UInt64) (poll : Poll F) : List PressureEvent :=
  match poll.outcome with
  | .returned sample => (PollLog.noteStatus {} nowMs poll.name sample).events
  | .threw _ | .escaped => []

/-- A poll that makes the snapshot stale (runtime.cpp:198). -/
def Poll.marksStale (poll : Poll F) : Bool :=
  match poll.outcome with
  | .returned sample => sample.status = .stale
  | .threw _ | .escaped => false

/-- A poll that makes the snapshot partial (runtime.cpp:196, 203, 206 and 215). -/
def Poll.marksPartial (poll : Poll F) : Bool :=
  match poll.outcome with
  | .returned sample =>
    sample.status = .failed || sample.status = .unavailable || sample.status = .partialData
  | .threw _ => true
  | .escaped => false

/-- What one poll adds to the events and flags of the log. -/
theorem pollOne_adds {nowMs : UInt64} {log log' : PollLog F} {poll : Poll F}
    (h : pollOne nowMs log poll = .ok log') :
    log'.events = log.events ++ poll.events nowMs ∧
      log'.staleData = (log.staleData || poll.marksStale) ∧
      log'.partialData = (log.partialData || poll.marksPartial) := by
  obtain ⟨name, outcome⟩ := poll
  cases outcome with
  | returned sample =>
    obtain rfl := Except.ok.inj h
    cases hs : sample.status with
    | healthy | partialData | stale | failed | unavailable =>
      simp [PollLog.noteStatus, Poll.events, Poll.marksStale, Poll.marksPartial, hs]
  | threw what =>
    obtain rfl := Except.ok.inj h
    simp [Poll.events, Poll.marksStale, Poll.marksPartial]
  | escaped => cases h

/-- **What the polling loop adds** to the events and flags of the log, poll by poll. -/
theorem pollAll_adds {nowMs : UInt64} {polls : List (Poll F)} {log log' : PollLog F}
    (h : pollAll nowMs log polls = .ok log') :
    log'.events = log.events ++ polls.flatMap (Poll.events nowMs) ∧
      log'.staleData = (log.staleData || polls.any Poll.marksStale) ∧
      log'.partialData = (log.partialData || polls.any Poll.marksPartial) := by
  induction polls generalizing log with
  | nil =>
    obtain rfl := Except.ok.inj h
    simp
  | cons poll polls ih =>
    rw [pollAll] at h
    cases hone : pollOne nowMs log poll with
    | error e =>
      rw [hone] at h
      cases h
    | ok log₁ =>
      rw [hone] at h
      obtain ⟨hev, hst, hpt⟩ := pollOne_adds hone
      obtain ⟨hev', hst', hpt'⟩ := ih h
      rw [hev', hst', hpt', hev, hst, hpt]
      simp [Bool.or_assoc]

/-- A poll's events name no domain and are about the provider. -/
theorem Poll.mem_events {nowMs : UInt64} {poll : Poll F} {e : PressureEvent}
    (h : e ∈ poll.events nowMs) :
    e.domain = none ∧ (e.type = .providerFailed ∨ e.type = .providerStale) := by
  obtain ⟨name, outcome⟩ := poll
  cases outcome with
  | returned sample =>
    cases hs : sample.status with
    | healthy | partialData => simp [Poll.events, PollLog.noteStatus, hs] at h
    | failed | unavailable =>
      obtain rfl : e = _ := by simpa [Poll.events, PollLog.noteStatus, hs] using h
      exact ⟨rfl, Or.inl rfl⟩
    | stale =>
      obtain rfl : e = _ := by simpa [Poll.events, PollLog.noteStatus, hs] using h
      exact ⟨rfl, Or.inr rfl⟩
  | threw _ | escaped => cases h

/-- How the samples of one provider ended, in polling order. -/
def statusesOf (p : String) (polls : List (Poll F)) : List ProviderStatus :=
  (polls.filter fun poll => poll.name = p).map fun poll => poll.outcome.health

/-- **The health map, provider by provider**: the last status polled under the
name, or what the map said before. -/
theorem healthFor_healthAfter (p : String) (polls : List (Poll F))
    (health : Finmap (fun _ : String => ProviderStatus)) :
    healthFor (healthAfter health polls) p
      = (statusesOf p polls).getLast?.getD (healthFor health p) := by
  induction polls generalizing health with
  | nil => rfl
  | cons poll polls ih =>
    show healthFor (healthAfter (health.insert poll.name poll.outcome.health) polls) p = _
    rw [ih]
    by_cases hp : poll.name = p
    · have hcons : statusesOf p (poll :: polls) = poll.outcome.health :: statusesOf p polls := by
        simp [statusesOf, hp]
      rw [hcons, List.getLast?_cons, Option.getD_some]
      congr 1
      rw [healthFor, hp, Finmap.lookup_insert]
      rfl
    · have hskip : statusesOf p (poll :: polls) = statusesOf p polls := by
        simp [statusesOf, hp]
      rw [hskip]
      congr 1
      rw [healthFor, Finmap.lookup_insert_of_ne _ (Ne.symm hp)]
      rfl

/-- What the health map says of a provider all of whose polls, and whose entry
before them unless there is a poll, satisfy `P`. -/
theorem healthFor_after {P : ProviderStatus → Prop} {p : String} {polls : List (Poll F)}
    {health : Finmap (fun _ : String => ProviderStatus)}
    (hall : ∀ poll ∈ polls, poll.name = p → P poll.outcome.health)
    (hsome : P (healthFor health p) ∨ ∃ poll ∈ polls, poll.name = p) :
    P (healthFor (healthAfter health polls) p) := by
  rw [healthFor_healthAfter]
  have hmem : ∀ s ∈ statusesOf p polls, P s := by
    intro s hs
    obtain ⟨poll, hpoll, rfl⟩ := List.mem_map.mp hs
    obtain ⟨hin, hp⟩ := List.mem_filter.mp hpoll
    exact hall poll hin (of_decide_eq_true hp)
  cases hlast : (statusesOf p polls).getLast? with
  | some s => exact hmem s (List.mem_of_getLast? hlast)
  | none =>
    rcases hsome with hstart | ⟨poll, hpoll, hp⟩
    · exact hstart
    · have hin : poll.outcome.health ∈ statusesOf p polls :=
        List.mem_map_of_mem (List.mem_filter.mpr ⟨hpoll, by simpa using hp⟩)
      rw [List.getLast?_eq_none_iff.mp hlast] at hin
      cases hin

/-! ## Retention and removal -/

section

variable {nowMs : UInt64} {health : Finmap (fun _ : String => ProviderStatus)}
  {observedIds : List PressureDomainId}

/-- A previous entry is kept as stale: unobserved, its provider not fresh. -/
def retains (health : Finmap (fun _ : String => ProviderStatus))
    (observedIds : List PressureDomainId) (pd : DomainState F) : Bool :=
  pd.id ∉ observedIds && (healthFor health pd.provider).notFresh

/-- A previous entry is dropped: unobserved, its provider fresh. -/
def removes (health : Finmap (fun _ : String => ProviderStatus))
    (observedIds : List PressureDomainId) (pd : DomainState F) : Bool :=
  pd.id ∉ observedIds && !(healthFor health pd.provider).notFresh

/-- The event the retention loop makes for a previous entry, if any. -/
def sweepEvent (nowMs : UInt64) (health : Finmap (fun _ : String => ProviderStatus))
    (observedIds : List PressureDomainId) (pd : DomainState F) : Option PressureEvent :=
  if pd.id ∈ observedIds then none
  else if (healthFor health pd.provider).notFresh then
    some (makePressureEvent .providerStale 0 nowMs (some pd.id)
      ("retained stale: " ++ pd.provider) 0)
  else some (makePressureEvent .domainRemoved 0 nowMs (some pd.id) "domain removed" 0)

/-- One turn of the retention loop, field by field. -/
theorem sweepOne_eq (acc : Sweep F) (pd : DomainState F) :
    sweepOne nowMs health observedIds acc pd =
      { domains := acc.domains ++ if retains health observedIds pd then [keeper nowMs pd] else []
        domainStates :=
          if removes health observedIds pd then acc.domainStates.erase pd.id else acc.domainStates
        events := acc.events ++ (sweepEvent nowMs health observedIds pd).toList
        staleData := acc.staleData || retains health observedIds pd } := by
  unfold sweepOne retains removes sweepEvent
  by_cases hobs : pd.id ∈ observedIds
  · simp [hobs]
  · by_cases hph : (healthFor health pd.provider).notFresh = true
    · simp [hobs, hph]
    · simp [hobs, hph]

theorem sweepAll_domains (prev : List (DomainState F)) (start : Sweep F) :
    (sweepAll nowMs health observedIds start prev).domains
      = start.domains ++ (prev.filter (retains health observedIds)).map (keeper nowMs) := by
  induction prev generalizing start with
  | nil => simp [sweepAll]
  | cons pd prev ih =>
    rw [sweepAll, List.foldl_cons, ← sweepAll, ih, sweepOne_eq]
    by_cases hr : retains health observedIds pd = true
    · simp [hr]
    · simp [hr]

theorem sweepAll_domainStates (prev : List (DomainState F)) (start : Sweep F) :
    (sweepAll nowMs health observedIds start prev).domainStates
      = Keyed.eraseAll start.domainStates
          ((prev.filter (removes health observedIds)).map DomainState.id) := by
  induction prev generalizing start with
  | nil => rfl
  | cons pd prev ih =>
    rw [sweepAll, List.foldl_cons, ← sweepAll, ih, sweepOne_eq]
    by_cases hr : removes health observedIds pd = true
    · simp [hr]
    · simp [hr]

theorem sweepAll_events (prev : List (DomainState F)) (start : Sweep F) :
    (sweepAll nowMs health observedIds start prev).events
      = start.events ++ prev.filterMap (sweepEvent nowMs health observedIds) := by
  induction prev generalizing start with
  | nil => simp [sweepAll]
  | cons pd prev ih =>
    rw [sweepAll, List.foldl_cons, ← sweepAll, ih, sweepOne_eq, List.append_assoc]
    cases he : sweepEvent nowMs health observedIds pd with
    | none => simp [he]
    | some e => simp [he]

theorem sweepAll_staleData (prev : List (DomainState F)) (start : Sweep F) :
    (sweepAll nowMs health observedIds start prev).staleData
      = (start.staleData || prev.any (retains health observedIds)) := by
  induction prev generalizing start with
  | nil => simp [sweepAll]
  | cons pd prev ih =>
    rw [sweepAll, List.foldl_cons, ← sweepAll, ih, sweepOne_eq, List.any_cons, Bool.or_assoc]

theorem sweepEvent_domain {pd : DomainState F} {e : PressureEvent}
    (h : sweepEvent nowMs health observedIds pd = some e) : e.domain = some pd.id := by
  unfold sweepEvent at h
  split_ifs at h
  · obtain rfl := Option.some.inj h
    rfl
  · obtain rfl := Option.some.inj h
    rfl

end

/-! ## One domain through the interpretation loop -/

/-- The observations of one domain. -/
def sightingsFor (d : PressureDomainId) (sightings : List (Sighting F)) : List (Sighting F) :=
  sightings.filter fun sight => sight.2.id = d

/-- One domain's observations through its own retained state, no other domain
around. -/
def interpretFor (pol : PressurePolicy F) (budgets : Budgets) (nowMs : UInt64)
    (st : Option (DomainRuntimeState F)) (sightings : List (Sighting F)) :
    Option (DomainRuntimeState F) × List (DomainState F) :=
  Keyed.solo (DomainRuntimeState.new pol.hysteresis 16) (interpretStep pol budgets nowMs) st
    sightings

@[simp] theorem interpretFor_nil (pol : PressurePolicy F) (budgets : Budgets) (nowMs : UInt64)
    (st : Option (DomainRuntimeState F)) :
    interpretFor pol budgets nowMs st [] = (st, []) := rfl

@[simp] theorem keeper_id (nowMs : UInt64) (pd : DomainState F) :
    (keeper nowMs pd).id = pd.id := rfl

@[simp] theorem respond_id (blocked : Bool) (ds : DomainState F) :
    (respond blocked ds).id = ds.id := rfl

@[simp] theorem respond_type (blocked : Bool) (ds : DomainState F) :
    (respond blocked ds).type = ds.type := rfl

@[simp] theorem respond_level (blocked : Bool) (ds : DomainState F) :
    (respond blocked ds).level = ds.level := rfl

@[simp] theorem respond_provider (blocked : Bool) (ds : DomainState F) :
    (respond blocked ds).provider = ds.provider := rfl

@[simp] theorem keeper_level (nowMs : UInt64) (pd : DomainState F) :
    (keeper nowMs pd).level = pd.level := rfl

@[simp] theorem keeper_provider (nowMs : UInt64) (pd : DomainState F) :
    (keeper nowMs pd).provider = pd.provider := rfl

/-- The events about one domain. -/
def eventsOn (d : PressureDomainId) (es : List PressureEvent) : List PressureEvent :=
  es.filter fun e => e.domain = some d

theorem eventsOn_eq_nil {d : PressureDomainId} {es : List PressureEvent}
    (h : ∀ e ∈ es, e.domain = none) : eventsOn d es = [] :=
  List.filter_eq_nil_iff.mpr fun e he => by simp [h e he]

namespace PressureRuntime

section

variable {pol : PressurePolicy F} {budgets : Budgets} {rt : PressureRuntime F} {nowMs : UInt64}
  {log : PollLog F}

theorem mem_observedIds {d : PressureDomainId} :
    d ∈ observedIds log ↔ sightingsFor d log.sightings ≠ [] := by
  simp [observedIds, sightingsFor, List.filter_eq_nil_iff]

theorem interpreted_ids :
    (interpreted pol budgets rt nowMs log).2.map DomainState.id = observedIds log :=
  Keyed.feed_outputs_map _ _ _ (interpretStep_id pol budgets nowMs) _ _

/-- Fresh entries first, then the retained ones. -/
theorem swept_domains : (swept pol budgets rt nowMs log).domains
    = (interpreted pol budgets rt nowMs log).2
      ++ (rt.currentSnapshot.domains.filter (retains log.health (observedIds log))).map
          (keeper nowMs) :=
  sweepAll_domains ..

/-- **What holds of every published entry**: what is made of any observation, holds
of the copies of the entries nobody observed, and is kept by the second pass. -/
theorem forall_published {P : DomainState F → Prop}
    (hfresh : ∀ st sight, P (interpretStep pol budgets nowMs st sight).2)
    (hkeeper : ∀ pd ∈ rt.currentSnapshot.domains, pd.id ∉ observedIds log → P (keeper nowMs pd))
    (hrespond : ∀ blocked ds, P ds → P (respond blocked ds)) :
    ∀ ds ∈ (published pol budgets rt nowMs log).snapshot.domains, P ds := by
  intro ds₀ hds₀
  obtain ⟨ds, hds, rfl⟩ := List.mem_map.mp hds₀
  refine hrespond _ _ ?_
  rw [swept_domains, List.mem_append] at hds
  rcases hds with hds | hds
  · exact Keyed.feed_forall_outputs _ _ _ hfresh log.sightings rt.domainStates ds hds
  · obtain ⟨pd, hpd, rfl⟩ := List.mem_map.mp hds
    obtain ⟨hold, hkeep⟩ := List.mem_filter.mp hpd
    exact hkeeper pd hold (by simpa [retains] using (Bool.and_eq_true_iff.mp hkeep).1)

theorem swept_domains_on (d : PressureDomainId) :
    (swept pol budgets rt nowMs log).domains.filter (fun ds => ds.id = d)
      = (interpretFor pol budgets nowMs (rt.domainStates.lookup d)
            (sightingsFor d log.sightings)).2
        ++ ((rt.currentSnapshot.entriesOf d).filter
            (retains log.health (observedIds log))).map (keeper nowMs) := by
  rw [swept_domains, List.filter_append]
  congr 1
  · exact Keyed.feed_outputs_filter _ _ _ (interpretStep_id pol budgets nowMs) _ _ _
  · rw [List.filter_map, Snapshot.entriesOf, List.filter_filter, List.filter_filter]
    simp only [Function.comp_def, keeper_id, Bool.and_comm]
    rfl

/-- The ids a refresh publishes: the observed ones, then the retained ones. -/
theorem ids_published : (published pol budgets rt nowMs log).snapshot.ids
    = observedIds log
      ++ (rt.currentSnapshot.domains.filter (retains log.health (observedIds log))).map
          DomainState.id := by
  show (crossTier (swept pol budgets rt nowMs log).domains).map DomainState.id = _
  rw [crossTier, List.map_map, swept_domains, List.map_append, List.map_map]
  congr 1
  exact interpreted_ids

/-- **Locality of entries**: a domain's published entries come from its own
observations, its own retained state and its own previous entries; other
domains reach only the responses, through the host tier. -/
theorem entriesOf_published (d : PressureDomainId) :
    (published pol budgets rt nowMs log).snapshot.entriesOf d
      = ((interpretFor pol budgets nowMs (rt.domainStates.lookup d)
              (sightingsFor d log.sightings)).2
          ++ ((rt.currentSnapshot.entriesOf d).filter
              (retains log.health (observedIds log))).map (keeper nowMs)).map
          (respond (hostBlocked (swept pol budgets rt nowMs log).domains)) := by
  rw [← swept_domains_on]
  show (crossTier (swept pol budgets rt nowMs log).domains).filter _ = _
  rw [crossTier, List.filter_map]
  rfl

/-- **Locality of retained states.** -/
theorem lookup_refreshed (d : PressureDomainId) :
    (refreshed pol budgets rt nowMs log).domainStates.lookup d
      = if (rt.currentSnapshot.entriesOf d).any (removes log.health (observedIds log)) then none
        else (interpretFor pol budgets nowMs (rt.domainStates.lookup d)
          (sightingsFor d log.sightings)).1 := by
  show (swept pol budgets rt nowMs log).domainStates.lookup d = _
  rw [swept, sweepAll_domainStates, Keyed.lookup_eraseAll]
  have hmem : d ∈ (rt.currentSnapshot.domains.filter
        (removes log.health (observedIds log))).map DomainState.id
      ↔ (rt.currentSnapshot.entriesOf d).any (removes log.health (observedIds log)) = true := by
    simp only [List.mem_map, List.mem_filter, List.any_eq_true, Snapshot.entriesOf,
      decide_eq_true_eq]
    constructor
    · rintro ⟨pd, ⟨hpd, hr⟩, hid⟩
      exact ⟨pd, ⟨hpd, hid⟩, hr⟩
    · rintro ⟨pd, ⟨hpd, hid⟩, hr⟩
      exact ⟨pd, ⟨hpd, hr⟩, hid⟩
  simp only [hmem]
  congr 1
  exact Keyed.feed_lookup ..

/-- A level that rose or fell is announced for its domain, as a transition. -/
theorem levelEvent_spec {generation : Nat} {prev : Snapshot F} {ds : DomainState F}
    {e : PressureEvent} (h : levelEvent generation nowMs prev ds = some e) :
    e.domain = some ds.id ∧ e.type.isTransition = true := by
  unfold levelEvent at h
  split at h
  · cases h
  -- either the level rose or it fell
  · split_ifs at h
    all_goals
      obtain rfl := Option.some.inj h
      exact ⟨rfl, rfl⟩

/-- A request is for its domain. -/
theorem requestEvents_spec {generation : Nat} {ds : DomainState F} {e : PressureEvent}
    (h : e ∈ requestEvents generation nowMs ds) :
    e.domain = some ds.id ∧ e.type.isRequest = true := by
  obtain ⟨a, -, ha⟩ := List.mem_filterMap.mp h
  cases a with
  | requestReclaim | requestDemotion | reduceAdmission | rejectNewWork =>
    obtain rfl := Option.some.inj ha
    exact ⟨rfl, rfl⟩
  | _ => cases ha

/-- The responses pass does not change which domains are new. -/
theorem addedEvents_map_respond (prev : Snapshot F) (blocked : Bool)
    (domains : List (DomainState F)) :
    addedEvents nowMs prev (domains.map (respond blocked)) = addedEvents nowMs prev domains := by
  rw [addedEvents, List.filter_map, List.map_map]
  rfl

/-- **Locality of events**: what a batch says about one domain. -/
theorem eventsOn_draftEvents (hlog : ∀ e ∈ log.events, e.domain = none) (d : PressureDomainId) :
    eventsOn d (draftEvents pol budgets rt nowMs log)
      = (rt.currentSnapshot.entriesOf d).filterMap
            (sweepEvent nowMs log.health (observedIds log))
        ++ addedEvents nowMs rt.currentSnapshot
            ((published pol budgets rt nowMs log).snapshot.entriesOf d)
        ++ ((published pol budgets rt nowMs log).snapshot.entriesOf d).filterMap
            (levelEvent (newGeneration pol budgets rt nowMs log) nowMs rt.currentSnapshot)
        ++ ((published pol budgets rt nowMs log).snapshot.entriesOf d).flatMap
            (requestEvents (newGeneration pol budgets rt nowMs log) nowMs) := by
  have hkey : ∀ ds : DomainState F, (some ds.id = some d) = (ds.id = d) := fun ds => by simp
  have hgen : eventsOn d (generationEvents pol budgets rt nowMs log) = [] := by
    refine eventsOn_eq_nil ?_
    intro e he
    unfold generationEvents at he
    split_ifs at he
    · rw [List.mem_singleton.mp he]
      rfl
    · cases he
  have hsweep : eventsOn d (swept pol budgets rt nowMs log).events
      = (rt.currentSnapshot.entriesOf d).filterMap
          (sweepEvent nowMs log.health (observedIds log)) := by
    rw [swept, sweepAll_events, List.nil_append, eventsOn,
      Keyed.filter_filterMap_key (fun _ _ he => sweepEvent_domain he)]
    simp only [hkey]
    rfl
  have hadded : eventsOn d (addedEvents nowMs rt.currentSnapshot
        (swept pol budgets rt nowMs log).domains)
      = addedEvents nowMs rt.currentSnapshot
          ((published pol budgets rt nowMs log).snapshot.entriesOf d) := by
    rw [entriesOf_published, addedEvents_map_respond, ← swept_domains_on, eventsOn, addedEvents,
      List.filter_map, addedEvents, List.filter_filter, List.filter_filter]
    simp only [Function.comp_def, makePressureEvent, hkey, Bool.and_comm]
  have hlevel : eventsOn d ((newDomains pol budgets rt nowMs log).filterMap
        (levelEvent (newGeneration pol budgets rt nowMs log) nowMs rt.currentSnapshot))
      = ((published pol budgets rt nowMs log).snapshot.entriesOf d).filterMap
          (levelEvent (newGeneration pol budgets rt nowMs log) nowMs rt.currentSnapshot) := by
    rw [eventsOn, Keyed.filter_filterMap_key (fun _ _ he => (levelEvent_spec he).1)]
    simp only [hkey]
    rfl
  have hrequest : eventsOn d ((newDomains pol budgets rt nowMs log).flatMap
        (requestEvents (newGeneration pol budgets rt nowMs log) nowMs))
      = ((published pol budgets rt nowMs log).snapshot.entriesOf d).flatMap
          (requestEvents (newGeneration pol budgets rt nowMs log) nowMs) := by
    rw [eventsOn, Keyed.filter_flatMap_key (fun _ _ he => (requestEvents_spec he).1)]
    simp only [hkey]
    rfl
  have happ : ∀ as bs : List PressureEvent,
      eventsOn d (as ++ bs) = eventsOn d as ++ eventsOn d bs := fun as bs => List.filter_append ..
  rw [draftEvents, happ, happ, happ, happ, happ, hsweep, hadded, hgen, hlevel, hrequest,
    eventsOn_eq_nil hlog, List.nil_append, List.append_nil]

/-! ### A domain seen once, and one not seen -/

variable (pol budgets rt nowMs) in
/-- A domain that was seen publishes what its observations make of its retained
state, and nothing of its previous entries. -/
theorem entriesOf_observed {d : PressureDomainId} (hseen : sightingsFor d log.sightings ≠ []) :
    (published pol budgets rt nowMs log).snapshot.entriesOf d
        = (interpretFor pol budgets nowMs (rt.domainStates.lookup d)
            (sightingsFor d log.sightings)).2.map
          (respond (hostBlocked (swept pol budgets rt nowMs log).domains)) ∧
      (refreshed pol budgets rt nowMs log).domainStates.lookup d
        = (interpretFor pol budgets nowMs (rt.domainStates.lookup d)
            (sightingsFor d log.sightings)).1 := by
  have hobs : d ∈ observedIds log := mem_observedIds.mpr hseen
  have hold : ∀ pd ∈ rt.currentSnapshot.entriesOf d, pd.id = d := fun pd hpd =>
    (Snapshot.mem_entriesOf.mp hpd).2
  have hkept : (rt.currentSnapshot.entriesOf d).filter
      (retains log.health (observedIds log)) = [] :=
    List.filter_eq_nil_iff.mpr fun pd hpd => by simp [retains, hold pd hpd, hobs]
  have hdropped :
      (rt.currentSnapshot.entriesOf d).any (removes log.health (observedIds log)) = false :=
    List.any_eq_false.mpr fun pd hpd => by simp [removes, hold pd hpd, hobs]
  rw [entriesOf_published, lookup_refreshed, hkept, hdropped, List.map_nil, List.append_nil]
  exact ⟨rfl, rfl⟩

variable (pol budgets rt nowMs) in
/-- A domain seen once publishes what that one observation makes of its
retained state. -/
theorem entriesOf_seen {d : PressureDomainId} {sight : Sighting F}
    (hseen : sightingsFor d log.sightings = [sight]) :
    (published pol budgets rt nowMs log).snapshot.entriesOf d
        = [respond (hostBlocked (swept pol budgets rt nowMs log).domains)
            (interpretStep pol budgets nowMs
              ((rt.domainStates.lookup d).getD (DomainRuntimeState.new pol.hysteresis 16))
              sight).2] ∧
      (refreshed pol budgets rt nowMs log).domainStates.lookup d
        = some (interpretStep pol budgets nowMs
            ((rt.domainStates.lookup d).getD (DomainRuntimeState.new pol.hysteresis 16))
            sight).1 := by
  have hne : sightingsFor d log.sightings ≠ [] := by simp [hseen]
  have hall := entriesOf_observed pol budgets rt nowMs hne
  rw [hseen] at hall
  exact hall

variable (pol budgets rt nowMs) in
/-- A domain nobody saw publishes its previous entries whose provider is not
fresh, as stale; one whose provider is fresh costs it its retained state. -/
theorem entriesOf_unseen {d : PressureDomainId} (hunseen : sightingsFor d log.sightings = []) :
    (published pol budgets rt nowMs log).snapshot.entriesOf d
        = ((rt.currentSnapshot.entriesOf d).filter fun pd =>
            (healthFor log.health pd.provider).notFresh).map
          (fun pd => respond (hostBlocked (swept pol budgets rt nowMs log).domains)
            (keeper nowMs pd)) ∧
      (refreshed pol budgets rt nowMs log).domainStates.lookup d
        = if (rt.currentSnapshot.entriesOf d).any fun pd =>
            !(healthFor log.health pd.provider).notFresh then none
          else rt.domainStates.lookup d := by
  have hobs : d ∉ observedIds log := fun h => mem_observedIds.mp h hunseen
  have hold : ∀ pd ∈ rt.currentSnapshot.entriesOf d, pd.id = d := fun pd hpd =>
    (Snapshot.mem_entriesOf.mp hpd).2
  have hkept : (rt.currentSnapshot.entriesOf d).filter (retains log.health (observedIds log))
      = (rt.currentSnapshot.entriesOf d).filter fun pd =>
          (healthFor log.health pd.provider).notFresh :=
    List.filter_congr fun pd hpd => by simp [retains, hold pd hpd, hobs]
  have hdropped : (rt.currentSnapshot.entriesOf d).any (removes log.health (observedIds log))
      = (rt.currentSnapshot.entriesOf d).any fun pd =>
          !(healthFor log.health pd.provider).notFresh := by
    rw [Bool.eq_iff_iff, List.any_eq_true, List.any_eq_true]
    refine exists_congr fun pd => and_congr_right fun hpd => ?_
    simp [removes, hold pd hpd, hobs]
  rw [entriesOf_published, lookup_refreshed, hunseen, hkept, hdropped, interpretFor_nil,
    List.nil_append, List.map_map]
  exact ⟨rfl, rfl⟩

/-- However often a domain is seen, its published level is what the first
observation of the refresh resolves to. -/
theorem levelOf_seen {d : PressureDomainId} {sight : Sighting F} {rest : List (Sighting F)}
    (hseen : sightingsFor d log.sightings = sight :: rest) :
    (published pol budgets rt nowMs log).snapshot.levelOf d
      = some (interpretStep pol budgets nowMs
          ((rt.domainStates.lookup d).getD (DomainRuntimeState.new pol.hysteresis 16))
          sight).2.level := by
  rw [Snapshot.levelOf_eq_head?, entriesOf_published, hseen]
  rfl

/-! ### Which loop makes which event -/

/-- Types the retention loop makes. -/
theorem sweepEvent_type {health : Finmap (fun _ : String => ProviderStatus)}
    {ids : List PressureDomainId} {pd : DomainState F} {e : PressureEvent}
    (h : sweepEvent nowMs health ids pd = some e) :
    e.type = .providerStale ∨ e.type = .domainRemoved := by
  unfold sweepEvent at h
  split_ifs at h
  · obtain rfl := Option.some.inj h
    exact Or.inl rfl
  · obtain rfl := Option.some.inj h
    exact Or.inr rfl

theorem addedEvents_type {prev : Snapshot F} {domains : List (DomainState F)} {e : PressureEvent}
    (h : e ∈ addedEvents nowMs prev domains) : e.type = .domainAdded := by
  obtain ⟨ds, -, rfl⟩ := List.mem_map.mp h
  rfl

end

/-! ## The whole refresh -/

/-- A refresh of `rt` that completes, on `log`, the log of all its polls. -/
structure CompletesWith (rt : PressureRuntime F) (nowMs : UInt64) (polls : List (Poll F))
    (log : PollLog F) : Prop where
  completes : Completes polls
  sightings : log.sightings = sightingsOf polls
  health : log.health = healthAfter rt.providerHealth polls
  events : ∀ e ∈ log.events, e.domain = none
  polled : pollAll nowMs { health := rt.providerHealth } polls = .ok log
  refresh_eq : rt.refresh nowMs polls
    = (refreshed rt.policy rt.budgets rt nowMs log, [published rt.policy rt.budgets rt nowMs log])

/-- **A refresh**: either it completes, or an escaping exception cuts it short
and nothing is published. -/
theorem refresh_cases (rt : PressureRuntime F) (nowMs : UInt64) (polls : List (Poll F)) :
    (∃ log, CompletesWith rt nowMs polls log) ∨
      (¬ Completes polls ∧ ∃ log : PollLog F, rt.refresh nowMs polls = (rt.cutShort log, [])) := by
  -- only the polling loop can be left by an exception
  rcases pollAll_spec nowMs polls { health := rt.providerHealth } with
    ⟨hc, log, hok, hpolled⟩ | ⟨hc, log, herr⟩
  · refine Or.inl ⟨log, hc, ?_, hpolled.health, hpolled.events fun e he => (by cases he), hok, ?_⟩
    · rw [hpolled.sightings, List.nil_append]
    · rw [refresh, refreshWith, hok]
  · refine Or.inr ⟨hc, log, ?_⟩
    rw [refresh, refreshWith, herr]

/-- The domains a completing refresh observes. -/
theorem CompletesWith.observedIds_eq {rt : PressureRuntime F} {nowMs : UInt64}
    {polls : List (Poll F)} {log : PollLog F} (h : CompletesWith rt nowMs polls log) :
    observedIds log = (sightingsOf polls).map fun sight => sight.2.id := by
  rw [observedIds, h.sightings]

end PressureRuntime

end MemoryPressure
