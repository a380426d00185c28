import MemoryPressure.Run

/-!
# The order of polling

`providers_` is an `unordered_map`, so which provider is polled first is not
determined. Where the samples of a refresh report distinct domains, it does not
matter:

- `ProvidersKeyed`: providers are registered under a key made of their name, so
  the polls of a refresh have distinct names and each writes its own health;
- `SameLog`: the logs of two polling orders, domain by domain the same;
- `SameOutcome`: what is published of two such logs, equal but for the order of
  the entries and events;
- `poll_order_irrelevant`: a refresh over permuted polls, after any run.

Each loop of `refresh` is taken in turn. Most of them work entry by entry, and their results
are permuted with the observations. Those that combine entries have to be looked at: the
worst level and the host-like severity are maxima, whose order never matters, and the
aggregate score is a sum. So its part rests on exact addition, which is a hypothesis of the
theorem, and with the score the generation rests on it, since a score that differs in the
last bit is a difference. With floating-point addition the two orders may publish scores an
ulp apart and count different generations.
-/

namespace MemoryPressure

variable {F : Type} [Double F]

/-! ## Polls of one refresh have distinct names -/

/-- Every provider is registered under the key of its name. -/
def ProvidersKeyed (rt : PressureRuntime F) : Prop :=
  ∀ k name, rt.providers.lookup k = some name → k = PressureRuntime.providerKey name

theorem providersKeyed_step {rt : PressureRuntime F} (h : ProvidersKeyed rt) (op : Op F) :
    ProvidersKeyed (step rt op).1 := by
  cases op with
  | setPolicy p =>
    show ProvidersKeyed (rt.setPolicy p)
    rw [rt.setPolicy_eq p]
    exact h
  | setBudget id b =>
    show ProvidersKeyed (rt.setBudget id b)
    rw [rt.setBudget_eq id b]
    exact h
  | clearBudget | setHistoryLimit => exact h
  | registerProvider name =>
    intro k name' hk
    change (rt.providers.insert (PressureRuntime.providerKey name) name).lookup k = _ at hk
    by_cases hkey : k = PressureRuntime.providerKey name
    · rw [hkey, Finmap.lookup_insert] at hk
      rw [hkey, Option.some.inj hk]
    · rw [Finmap.lookup_insert_of_ne _ hkey] at hk
      exact h k name' hk
  | refresh nowMs polls =>
    show ProvidersKeyed (rt.refresh nowMs polls).1
    rcases rt.refresh_cases nowMs polls with ⟨log, hlog⟩ | ⟨-, log, heq⟩
    · rw [hlog.refresh_eq]
      exact h
    · rw [heq]
      exact h

theorem providersKeyed_run (ops : List (Op F)) :
    ProvidersKeyed (runFrom PressureRuntime.init ops) :=
  Machine.run_invariant step (fun _ op _ h => providersKeyed_step h op)
    fun k name h => by cases h

/-- The providers a refresh polls have distinct names. -/
theorem names_nodup_of_legal {rt : PressureRuntime F} (h : ProvidersKeyed rt) {nowMs : UInt64}
    {polls : List (Poll F)} (hlegal : Legal rt (.refresh nowMs polls)) :
    (polls.map Poll.name).Nodup := by
  rw [← Multiset.coe_nodup, show ((polls.map Poll.name : List String) : Multiset String)
    = rt.providers.entries.map Sigma.snd from hlegal]
  refine Multiset.Nodup.map_on ?_ (Multiset.NodupKeys.nodup rt.providers.nodupKeys)
  rintro ⟨k, name⟩ hk ⟨k', name'⟩ hk' (heq : name = name')
  have hkey := h k name (Finmap.lookup_eq_some_iff.mpr hk)
  have hkey' := h k' name' (Finmap.lookup_eq_some_iff.mpr hk')
  subst heq
  rw [hkey, hkey']

/-! ## Logs of two polling orders -/

/-- Two logs of the same polls in some order each. -/
structure SameLog (log log' : PollLog F) : Prop where
  sightings : ∀ d, sightingsFor d log.sightings = sightingsFor d log'.sightings
  health : log.health = log'.health
  events : log.events.Perm log'.events
  staleData : log.staleData = log'.staleData
  partialData : log.partialData = log'.partialData

open PressureRuntime

/-- Polls of distinct names, reporting distinct domains, make the same log in
any order. -/
theorem sameLog_of_perm {rt : PressureRuntime F} {nowMs : UInt64} {polls polls' : List (Poll F)}
    {log log' : PollLog F} (hlog : CompletesWith rt nowMs polls log)
    (hlog' : CompletesWith rt nowMs polls' log') (hperm : polls.Perm polls')
    (hnames : (polls.map Poll.name).Nodup) (hids : (observedIds log).Nodup) :
    SameLog log log' := by
  have hadds := pollAll_adds hlog.polled
  have hadds' := pollAll_adds hlog'.polled
  have hsightings : log.sightings.Perm log'.sightings := by
    rw [hlog.sightings, hlog'.sightings]
    exact hperm.flatMap_right _
  constructor
  · intro d
    have hfor : (sightingsFor d log.sightings).Perm (sightingsFor d log'.sightings) :=
      hsightings.filter _
    rw [← observes_of_completes hlog] at hids
    rcases seen_or_unseen hlog (List.nodup_iff_count_le_one.mp hids d) with hun | ⟨sight, hseen⟩
    · rw [hun] at hfor ⊢
      exact (List.nil_perm.mp hfor).symm
    · rw [hseen] at hfor ⊢
      exact (List.singleton_perm.mp hfor)
  · rw [hlog.health, hlog'.health]
    refine hperm.foldl_eq' (fun x hx y hy health => ?_) _
    -- the statuses are stored by name, and no name is polled twice
    by_cases hname : x.name = y.name
    · rw [List.inj_on_of_nodup_map hnames hx hy hname]
    · exact Finmap.insert_insert_of_ne _ hname
  · rw [hadds.1, hadds'.1]
    exact hperm.flatMap_right _
  · rw [hadds.2.1, hadds'.2.1, hperm.any_eq]
  · rw [hadds.2.2, hadds'.2.2, hperm.any_eq]

/-! ## The loops, in any order -/

section

variable {domains domains' : List (DomainState F)}

theorem hostBlocked_perm (h : domains.Perm domains') :
    hostBlocked domains = hostBlocked domains' := by
  have hsev : hostSev domains = hostSev domains' := by
    refine h.foldl_eq' (fun x _ y _ acc => ?_) 0
    by_cases hx : isHostlike x.type = true <;> by_cases hy : isHostlike y.type = true <;>
      simp only [hx, hy, if_true, if_false, Nat.max_right_comm, Bool.false_eq_true]
  rw [hostBlocked, hostBlocked, hostPresent, hostPresent, h.any_eq, hsev]

theorem aggregateLevelOf_perm (h : domains.Perm domains') :
    aggregateLevelOf domains = aggregateLevelOf domains' := by
  have hsev : aggSev domains = aggSev domains' :=
    h.foldl_eq' (fun x _ y _ acc => Nat.max_right_comm ..) 0
  have hempty : domains.isEmpty = domains'.isEmpty := h.isEmpty_eq
  rw [aggregateLevelOf, aggregateLevelOf, hsev, hempty]

/-- The aggregate score is a sum: in exact arithmetic its order does not matter. -/
theorem aggregateScoreOf_perm (hadd : ∀ a b c : F, a + b + c = a + c + b)
    (pol : PressurePolicy F) (h : domains.Perm domains') :
    aggregateScoreOf pol domains = aggregateScoreOf pol domains' := by
  unfold aggregateScoreOf
  rw [h.foldl_eq' fun x _ y _ acc => Prod.ext (hadd ..) (hadd ..)]

/-- A difference is as empty against a reordered snapshot. -/
theorem any_perm {a b b' : Snapshot F} (hdomains : b.domains.Perm b'.domains)
    (hfind : ∀ d, b.findDomain d = b'.findDomain d)
    (hlevel : b.aggregateLevel = b'.aggregateLevel) (hscore : b.aggregateScore = b'.aggregateScore)
    (hversion : b.policyVersion = b'.policyVersion)
    (hhealth : b.providerHealth = b'.providerHealth) :
    (diffSnapshots a b).any = (diffSnapshots a b').any := by
  have hcommon : (commonDomains a b).Perm (commonDomains a b') := hdomains.filterMap _
  have hadded : (diffSnapshots a b).addedDomains.isEmpty
      = (diffSnapshots a b').addedDomains.isEmpty := ((hdomains.filter _).map _).isEmpty_eq
  have hremoved : (diffSnapshots a b).removedDomains = (diffSnapshots a b').removedDomains := by
    simp only [diffSnapshots, hfind]
  have hlevels : (diffSnapshots a b).levelChanged.isEmpty
      = (diffSnapshots a b').levelChanged.isEmpty := ((hcommon.filter _).map _).isEmpty_eq
  have hbudgets : (diffSnapshots a b).budgetChanged.isEmpty
      = (diffSnapshots a b').budgetChanged.isEmpty := ((hcommon.filter _).map _).isEmpty_eq
  have hreserves : (diffSnapshots a b).reserveChanged.isEmpty
      = (diffSnapshots a b').reserveChanged.isEmpty := ((hcommon.filter _).map _).isEmpty_eq
  rw [SnapshotDiff.any, SnapshotDiff.any, hadded, hremoved, hlevels, hbudgets, hreserves]
  simp only [diffSnapshots, hlevel, hscore, hversion, hhealth]

end

namespace SameLog

variable {log log' : PollLog F} (h : SameLog log log') (pol : PressurePolicy F)
  (budgets : Budgets) (rt : PressureRuntime F) (nowMs : UInt64)
include h

theorem mem_observedIds (d : PressureDomainId) : d ∈ observedIds log ↔ d ∈ observedIds log' := by
  rw [PressureRuntime.mem_observedIds, PressureRuntime.mem_observedIds, h.sightings]

theorem retains_eq : (retains log.health (observedIds log) : DomainState F → Bool)
    = retains log'.health (observedIds log') := by
  funext pd
  simp only [retains, h.health, h.mem_observedIds]

theorem removes_eq : (removes log.health (observedIds log) : DomainState F → Bool)
    = removes log'.health (observedIds log') := by
  funext pd
  simp only [removes, h.health, h.mem_observedIds]

theorem sweepEvent_eq : (sweepEvent nowMs log.health (observedIds log) :
      DomainState F → Option PressureEvent)
    = sweepEvent nowMs log'.health (observedIds log') := by
  funext pd
  simp only [sweepEvent, h.health, h.mem_observedIds]

theorem swept_perm : (swept pol budgets rt nowMs log).domains.Perm
    (swept pol budgets rt nowMs log').domains := by
  refine Keyed.perm_of_filter_key DomainState.id ?_
  intro d
  rw [swept_domains_on, swept_domains_on, h.sightings, h.retains_eq]

/-- Domain by domain, the same entries are published. -/
theorem entriesOf_eq (d : PressureDomainId) :
    (published pol budgets rt nowMs log).snapshot.entriesOf d
      = (published pol budgets rt nowMs log').snapshot.entriesOf d := by
  rw [entriesOf_published, entriesOf_published, h.sightings, h.retains_eq,
    hostBlocked_perm (h.swept_perm pol budgets rt nowMs)]

theorem newDomains_perm : (newDomains pol budgets rt nowMs log).Perm
    (newDomains pol budgets rt nowMs log') :=
  Keyed.perm_of_filter_key DomainState.id (h.entriesOf_eq pol budgets rt nowMs)

theorem findDomain_eq (d : PressureDomainId) :
    (published pol budgets rt nowMs log).snapshot.findDomain d
      = (published pol budgets rt nowMs log').snapshot.findDomain d := by
  rw [Snapshot.findDomain_eq_head?, Snapshot.findDomain_eq_head?, h.entriesOf_eq]

/-- Domain by domain, the same state is retained. -/
theorem domainStates_eq : (refreshed pol budgets rt nowMs log).domainStates
    = (refreshed pol budgets rt nowMs log').domainStates := by
  refine Finmap.ext_lookup ?_
  intro d
  rw [lookup_refreshed, lookup_refreshed, h.sightings, h.removes_eq]

theorem staleData_eq : (swept pol budgets rt nowMs log).staleData
    = (swept pol budgets rt nowMs log').staleData := by
  rw [swept, swept, sweepAll_staleData, sweepAll_staleData, h.retains_eq, h.staleData]

theorem changed_eq (hadd : ∀ a b c : F, a + b + c = a + c + b) :
    changed pol budgets rt nowMs log = changed pol budgets rt nowMs log' :=
  any_perm (h.newDomains_perm pol budgets rt nowMs) (h.findDomain_eq pol budgets rt nowMs)
    (aggregateLevelOf_perm (h.newDomains_perm pol budgets rt nowMs))
    (aggregateScoreOf_perm hadd pol (h.newDomains_perm pol budgets rt nowMs)) rfl h.health

theorem newGeneration_eq (hadd : ∀ a b c : F, a + b + c = a + c + b) :
    newGeneration pol budgets rt nowMs log = newGeneration pol budgets rt nowMs log' := by
  rw [newGeneration, newGeneration, h.changed_eq pol budgets rt nowMs hadd]

/-- Two logs of the same polls make the same events, in some order. -/
theorem draftEvents_perm (hadd : ∀ a b c : F, a + b + c = a + c + b) :
    (draftEvents pol budgets rt nowMs log).Perm (draftEvents pol budgets rt nowMs log') := by
  have hgen := h.newGeneration_eq pol budgets rt nowMs hadd
  have hnew := h.newDomains_perm pol budgets rt nowMs
  have hswept : (swept pol budgets rt nowMs log).events
      = (swept pol budgets rt nowMs log').events := by
    rw [swept, swept, sweepAll_events, sweepAll_events, h.sweepEvent_eq]
  have hgenEvents : generationEvents pol budgets rt nowMs log
      = generationEvents pol budgets rt nowMs log' := by
    rw [generationEvents, generationEvents, h.changed_eq pol budgets rt nowMs hadd, hgen]
  unfold draftEvents
  rw [hswept, hgenEvents, hgen]
  refine ((((h.events.append_right _).append ?_).append_right _).append ?_).append ?_
  · exact ((h.swept_perm pol budgets rt nowMs).filter _).map _
  · exact hnew.filterMap _
  · exact hnew.flatMap_right _

end SameLog

/-! ## Permuted polls -/

/-- An event without the id it was numbered with. -/
def PressureEvent.withoutId (e : PressureEvent) : PressureEvent := { e with id := 0 }

/-- Numbering a batch only sets its ids. -/
theorem map_withoutId_stampIds (nextId : Nat) (es : List PressureEvent) :
    (stampIds nextId es).map PressureEvent.withoutId = es.map PressureEvent.withoutId :=
  map_stampIds (fun _ _ => rfl) nextId es

/-- Two publications that differ in the order of their entries and events only. -/
structure SameOutcome (a b : Published F) : Prop where
  domains : ∀ d, a.snapshot.findDomain d = b.snapshot.findDomain d
  entries : a.snapshot.domains.Perm b.snapshot.domains
  aggregateLevel : a.snapshot.aggregateLevel = b.snapshot.aggregateLevel
  aggregateScore : a.snapshot.aggregateScore = b.snapshot.aggregateScore
  providerHealth : a.snapshot.providerHealth = b.snapshot.providerHealth
  staleData : a.snapshot.staleData = b.snapshot.staleData
  partialData : a.snapshot.partialData = b.snapshot.partialData
  generation : a.snapshot.generation = b.snapshot.generation
  events : (a.events.map PressureEvent.withoutId).Perm (b.events.map PressureEvent.withoutId)

theorem SameLog.sameOutcome {log log' : PollLog F} (h : SameLog log log')
    (hadd : ∀ a b c : F, a + b + c = a + c + b) (pol : PressurePolicy F) (budgets : Budgets)
    (rt : PressureRuntime F) (nowMs : UInt64) :
    SameOutcome (published pol budgets rt nowMs log) (published pol budgets rt nowMs log') where
  domains := h.findDomain_eq pol budgets rt nowMs
  entries := h.newDomains_perm pol budgets rt nowMs
  aggregateLevel := aggregateLevelOf_perm (h.newDomains_perm pol budgets rt nowMs)
  aggregateScore := aggregateScoreOf_perm hadd pol (h.newDomains_perm pol budgets rt nowMs)
  providerHealth := h.health
  staleData := h.staleData_eq pol budgets rt nowMs
  partialData := h.partialData
  generation := h.newGeneration_eq pol budgets rt nowMs hadd
  events := by
    show (List.map _ (stampIds _ _)).Perm (List.map _ (stampIds _ _))
    rw [map_withoutId_stampIds, map_withoutId_stampIds]
    exact (h.draftEvents_perm pol budgets rt nowMs hadd).map _

/-- **The order of polling is irrelevant.** After any run, a refresh that polls
the registered providers, which report distinct domains, has the same outcome
in every polling order: the same published state of every domain, aggregates,
provider health, flags and generation, the same events but for their order and
ids, and the same retained states. Scores are added exactly. -/
theorem poll_order_irrelevant (hadd : ∀ a b c : F, a + b + c = a + c + b) (ops : List (Op F))
    (nowMs : UInt64) {polls polls' : List (Poll F)} (hperm : polls.Perm polls')
    (hlegal : Legal (runFrom PressureRuntime.init ops) (.refresh nowMs polls))
    (hids : ((sightingsOf polls).map fun sight => sight.2.id).Nodup) :
    List.Forall₂ SameOutcome (step (runFrom PressureRuntime.init ops) (.refresh nowMs polls)).2
        (step (runFrom PressureRuntime.init ops) (.refresh nowMs polls')).2 ∧
      (step (runFrom PressureRuntime.init ops) (.refresh nowMs polls)).1.domainStates
        = (step (runFrom PressureRuntime.init ops) (.refresh nowMs polls')).1.domainStates ∧
      (step (runFrom PressureRuntime.init ops) (.refresh nowMs polls)).1.generation
        = (step (runFrom PressureRuntime.init ops) (.refresh nowMs polls')).1.generation := by
  have hnames := names_nodup_of_legal (providersKeyed_run ops) hlegal
  generalize runFrom PressureRuntime.init ops = rt
  show List.Forall₂ SameOutcome (rt.refresh nowMs polls).2 (rt.refresh nowMs polls').2 ∧
    (rt.refresh nowMs polls).1.domainStates = (rt.refresh nowMs polls').1.domainStates ∧
    (rt.refresh nowMs polls).1.generation = (rt.refresh nowMs polls').1.generation
  have hcompletes : Completes polls ↔ Completes polls' :=
    ⟨fun h poll hpoll => h poll (hperm.mem_iff.mpr hpoll),
      fun h poll hpoll => h poll (hperm.mem_iff.mp hpoll)⟩
  rcases rt.refresh_cases nowMs polls with ⟨log, hlog⟩ | ⟨hc, log, heq⟩
  · rcases rt.refresh_cases nowMs polls' with ⟨log', hlog'⟩ | ⟨hc', -⟩
    · rw [← hlog.observedIds_eq] at hids
      have hsame := sameLog_of_perm hlog hlog' hperm hnames hids
      rw [hlog.refresh_eq, hlog'.refresh_eq]
      exact ⟨.cons (hsame.sameOutcome hadd ..) .nil, hsame.domainStates_eq ..,
        hsame.newGeneration_eq _ _ _ _ hadd⟩
    · exact absurd (hcompletes.mp hlog.completes) hc'
  · rcases rt.refresh_cases nowMs polls' with ⟨log', hlog'⟩ | ⟨-, log', heq'⟩
    · exact absurd (hcompletes.mpr hlog'.completes) hc
    · -- an escaping exception: nothing is published and both stores stay
      rw [heq, heq']
      exact ⟨.nil, rfl, rfl⟩

/-- One poll of a provider that reports one domain. -/
def pollOfOne (name : String) (id : UInt64) (type : DomainType) (committed : UInt64) : Poll ℚ where
  name := name
  outcome := .returned { observations :=
    [{ id := { high := 0, low := id }, type := type, totalCapacity := 100,
       committed := committed }] }

/-- A calm host and a full accelerator, polled in either order: the published
accelerator is the same. -/
theorem poll_order_irrelevant_pair :
    List.Forall₂ SameOutcome
      (step (runFrom PressureRuntime.init [.registerProvider "host", .registerProvider "cuda"])
        (.refresh 1000 [pollOfOne "host" 1 .hostMemory 10,
          pollOfOne "cuda" 2 .acceleratorMemory 99])).2
      (step (runFrom PressureRuntime.init [.registerProvider "host", .registerProvider "cuda"])
        (.refresh 1000 [pollOfOne "cuda" 2 .acceleratorMemory 99,
          pollOfOne "host" 1 .hostMemory 10])).2 :=
  (poll_order_irrelevant (fun a b c => add_right_comm a b c) _ 1000 (.swap ..)
    (by decide +kernel) (by decide +kernel)).1

end MemoryPressure
