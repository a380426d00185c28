import MemoryPressure.Differences
import MemoryPressure.Foundation.Counters
import MemoryPressure.Retained
import MemoryPressure.Undisturbed

/-!
# What telemetry accounts for (`runtime.cpp`)

`RuntimeStats` is written all over `refresh` and `set_policy`. After every run it
says what was called and what was published, nothing more and nothing less.

- `Op.tally`, `Published.tally`: what one call and one publication count.
- `pollAll_polled`: an exception that gets through leaves the polls before it.
- `telemetry_accounts`: the counters, the generation and the snapshot number of a
  run, from its calls and its publications.
- `transitions_accounted`: `pressure_transitions` against the level events, in runs
  that replace no policy and observe no id twice. An arrival above normal is counted
  and not announced.

The counters are added up as a record, in the commutative monoid of their sums, so that
`Machine.count_run` takes all of them at once. `stats_step` is the fact about one step: what
a call counts whatever comes of it, its policy accepted or its providers failed until an
exception got through, and what its publication counts. `pressure_transitions` is set apart
(`settled`), as it counts changes of the debounce machines where all other counters count
what is published.

**What is left out.** Of the members of the source's record, those that the calls of a run
do not write: the four counters of `admit`, `stale_observations`, `event_dropped` and
`query_count`, which nothing in the source writes, and `refresh_latency_us`.
-/

namespace MemoryPressure

variable {F : Type} [Double F]

attribute [ext] RuntimeStats

/-! ## Counters as a record -/

instance : Add RuntimeStats where
  add a b :=
    { observations := a.observations + b.observations
      snapshots := a.snapshots + b.snapshots
      pressureTransitions := a.pressureTransitions + b.pressureTransitions
      providerFailures := a.providerFailures + b.providerFailures
      backpressureSignals := a.backpressureSignals + b.backpressureSignals
      reclaimRequests := a.reclaimRequests + b.reclaimRequests
      demotionRequests := a.demotionRequests + b.demotionRequests
      policyChanges := a.policyChanges + b.policyChanges
      generationChanges := a.generationChanges + b.generationChanges }

instance : Zero RuntimeStats := ⟨{}⟩

instance : AddCommMonoid RuntimeStats where
  add_assoc a b c := by ext <;> exact Nat.add_assoc ..
  zero_add a := by ext <;> exact Nat.zero_add ..
  add_zero a := by ext <;> exact Nat.add_zero ..
  add_comm a b := by ext <;> exact Nat.add_comm ..
  nsmul := nsmulRec

/-- The counters but `pressure_transitions`. -/
def RuntimeStats.settled (stats : RuntimeStats) : RuntimeStats :=
  { stats with pressureTransitions := 0 }

/-! ## What a call and a publication count -/

/-- The polls before the first exception that gets through. -/
def polled (polls : List (Poll F)) : List (Poll F) :=
  polls.takeWhile fun poll => !poll.outcome.escapes

/-- What a call counts whatever comes of it. -/
def Op.tally : Op F → RuntimeStats
  | .setPolicy p => { policyChanges := if (validatePolicy p).isSome then 0 else 1 }
  | .refresh nowMs polls =>
    { observations := (Op.refresh nowMs polls).observes.length
      providerFailures := (polled polls).countP fun poll => poll.outcome.failed }
  | _ => {}

/-- The events of one type in a published batch. -/
def Published.ofType (pub : Published F) (type : PressureEventType) : Nat :=
  pub.events.countP fun e => e.type = type

/-- What a publication counts. -/
def Published.tally (pub : Published F) : RuntimeStats where
  snapshots := 1
  backpressureSignals := pub.ofType .backpressureIssued
  reclaimRequests := pub.ofType .reclaimRequested
  demotionRequests := pub.ofType .demotionRequested
  generationChanges := pub.ofType .generationChanged

/-- The call is a refresh. -/
def Op.isRefresh : Op F → Bool
  | .refresh _ _ => true
  | _ => false

/-! ## Polls up to an exception -/

/-- **An exception leaves the polls before it**: the loop ends with their log,
whether it ends at the last provider or is left. -/
theorem pollAll_polled (nowMs : UInt64) (polls : List (Poll F)) (log : PollLog F) :
    ∃ log', pollAll nowMs log (polled polls) = .ok log' ∧
      pollAll nowMs log polls = if Completes polls then .ok log' else .error log' := by
  induction polls generalizing log with
  | nil => exact ⟨log, rfl, by simp [Completes, pollAll]⟩
  | cons poll polls ih =>
    by_cases hesc : poll.outcome.escapes = false
    · obtain ⟨log₁, hone, -⟩ := pollOne_spec nowMs log poll hesc
      obtain ⟨log', hok, hall⟩ := ih log₁
      have hcons : Completes (poll :: polls) ↔ Completes polls := by simp [Completes, hesc]
      refine ⟨log', ?_, ?_⟩
      · simp only [polled, List.takeWhile_cons, hesc, Bool.not_false, if_true, pollAll, hone]
        exact hok
      · simp only [pollAll, hone, hall, hcons]
    · have hnot : ¬ Completes (poll :: polls) := fun hc => hesc (hc poll (List.mem_cons_self ..))
      obtain ⟨name, outcome⟩ := poll
      cases outcome with
      | returned _ | threw _ => exact absurd rfl hesc
      | escaped => exact ⟨log, rfl, (if_neg hnot).symm⟩

/-- The failures of a polling loop that completes. -/
theorem pollAll_failures {nowMs : UInt64} {polls : List (Poll F)} {log log' : PollLog F}
    (h : pollAll nowMs log polls = .ok log') :
    log'.providerFailures
      = log.providerFailures + polls.countP fun poll => poll.outcome.failed := by
  induction polls generalizing log with
  | nil =>
    obtain rfl := Except.ok.inj h
    rfl
  | cons poll polls ih =>
    rw [pollAll] at h
    cases hone : pollOne nowMs log poll with
    | error e =>
      rw [hone] at h
      cases h
    | ok log₁ =>
      rw [hone] at h
      rw [ih h, pollOne_failures hone, List.countP_cons]
      omega

open PressureRuntime (CompletesWith refreshed published draftEvents newDomains newGeneration changed
  generationEvents swept interpreted)

/-- A refresh and the polls it got through. -/
theorem refresh_polled (rt : PressureRuntime F) (nowMs : UInt64) (polls : List (Poll F)) :
    ∃ log, pollAll nowMs { health := rt.providerHealth } (polled polls) = .ok log ∧
      (CompletesWith rt nowMs polls log ∨
        (¬ Completes polls ∧ rt.refresh nowMs polls = (rt.cutShort log, []))) := by
  obtain ⟨log, hok, hall⟩ := pollAll_polled nowMs polls { health := rt.providerHealth }
  refine ⟨log, hok, ?_⟩
  by_cases hc : Completes polls
  · rw [if_pos hc] at hall
    rcases rt.refresh_cases nowMs polls with ⟨log', hlog⟩ | ⟨hnot, -⟩
    · obtain rfl := Except.ok.inj (hall.symm.trans hlog.polled)
      exact Or.inl hlog
    · exact absurd hc hnot
  · rw [if_neg hc] at hall
    refine Or.inr ⟨hc, ?_⟩
    rw [PressureRuntime.refresh, PressureRuntime.refreshWith, hall]

/-! ## The events of a batch, counted -/

section

variable {rt : PressureRuntime F} {nowMs : UInt64} {polls : List (Poll F)} {log : PollLog F}

/-- Among the types that are about generations, levels and requests, a batch has what
the last three loops make. -/
theorem countP_batch (hlog : CompletesWith rt nowMs polls log)
    {p : PressureEventType → Bool}
    (hp : p .providerFailed = false ∧ p .providerStale = false ∧ p .domainRemoved = false ∧
      p .domainAdded = false) :
    (draftEvents rt.policy rt.budgets rt nowMs log).countP (fun e => p e.type)
      = (generationEvents rt.policy rt.budgets rt nowMs log).countP (fun e => p e.type)
        + ((newDomains rt.policy rt.budgets rt nowMs log).filterMap
            (levelEvent (newGeneration rt.policy rt.budgets rt nowMs log) nowMs
              rt.currentSnapshot)).countP (fun e => p e.type)
        + ((newDomains rt.policy rt.budgets rt nowMs log).flatMap
            (requestEvents (newGeneration rt.policy rt.budgets rt nowMs log) nowMs)).countP
              (fun e => p e.type) := by
  obtain ⟨hfailed, hstale, hremoved, hadded⟩ := hp
  have hpolls : log.events.countP (fun e => p e.type) = 0 := by
    rw [List.countP_eq_zero, (pollAll_adds hlog.polled).1, List.nil_append]
    intro e he
    obtain ⟨poll, -, hev⟩ := List.mem_flatMap.mp he
    rcases (Poll.mem_events hev).2 with htype | htype <;> simp [htype, hfailed, hstale]
  have hsweep : (swept rt.policy rt.budgets rt nowMs log).events.countP
      (fun e => p e.type) = 0 := by
    rw [List.countP_eq_zero, swept, sweepAll_events, List.nil_append]
    intro e he
    obtain ⟨pd, -, hev⟩ := List.mem_filterMap.mp he
    rcases PressureRuntime.sweepEvent_type hev with htype | htype <;> simp [htype, hstale, hremoved]
  have hadds : (addedEvents nowMs rt.currentSnapshot
      (swept rt.policy rt.budgets rt nowMs log).domains).countP (fun e => p e.type) = 0 := by
    rw [List.countP_eq_zero]
    intro e he
    simp [PressureRuntime.addedEvents_type he, hadded]
  rw [draftEvents, List.countP_append, List.countP_append, List.countP_append, List.countP_append,
    List.countP_append, hpolls, hsweep, hadds]
  omega

/-- A batch announces the generation exactly when it changed. -/
theorem ofType_generationChanged (hlog : CompletesWith rt nowMs polls log) :
    (published rt.policy rt.budgets rt nowMs log).ofType .generationChanged
      = if changed rt.policy rt.budgets rt nowMs log then 1 else 0 := by
  have hlevels : ((newDomains rt.policy rt.budgets rt nowMs log).filterMap
      (levelEvent (newGeneration rt.policy rt.budgets rt nowMs log) nowMs
        rt.currentSnapshot)).countP (fun e => e.type = .generationChanged) = 0 := by
    rw [List.countP_eq_zero]
    intro e he htype
    obtain ⟨ds, -, hev⟩ := List.mem_filterMap.mp he
    have htransition := (PressureRuntime.levelEvent_spec hev).2
    rw [of_decide_eq_true htype] at htransition
    cases htransition
  have hrequests : ((newDomains rt.policy rt.budgets rt nowMs log).flatMap
      (requestEvents (newGeneration rt.policy rt.budgets rt nowMs log) nowMs)).countP
        (fun e => e.type = .generationChanged) = 0 := by
    rw [List.countP_eq_zero]
    intro e he htype
    obtain ⟨ds, -, hev⟩ := List.mem_flatMap.mp he
    have hrequest := (PressureRuntime.requestEvents_spec hev).2
    rw [of_decide_eq_true htype] at hrequest
    cases hrequest
  rw [Published.ofType, published, countP_stampIds fun _ _ => rfl,
    countP_batch (p := fun type => type = .generationChanged) hlog ⟨rfl, rfl, rfl, rfl⟩,
    hlevels, hrequests, generationEvents]
  split_ifs <;> rfl

end

/-! ## Every run -/

/-- What a completing refresh counts is what it observes, what failed and what it
publishes. -/
theorem refreshStats_settled {rt : PressureRuntime F} {nowMs : UInt64} {polls : List (Poll F)}
    {log : PollLog F} (hlog : CompletesWith rt nowMs polls log)
    (hfailures : log.providerFailures = (polled polls).countP fun poll => poll.outcome.failed) :
    (PressureRuntime.refreshStats rt.policy rt.budgets rt nowMs log).settled
      = rt.stats.settled + ((Op.refresh nowMs polls).tally
          + (published rt.policy rt.budgets rt nowMs log).tally) := by
  have hobserved : (Op.refresh nowMs polls).observes.length = log.sightings.length := by
    rw [observes_of_completes hlog, PressureRuntime.observedIds, List.length_map]
  have hrequests : ∀ type,
      (draftEvents rt.policy rt.budgets rt nowMs log).countP (fun e => e.type = type)
        = (published rt.policy rt.budgets rt nowMs log).ofType type := fun type =>
    (countP_stampIds (p := fun e => e.type = type) (fun _ _ => rfl) _ _).symm
  have hgeneration := ofType_generationChanged hlog
  ext
  case observations =>
    show rt.stats.observations + log.sightings.length = rt.stats.observations + (_ + 0)
    rw [← hobserved]
    rfl
  case providerFailures =>
    show rt.stats.providerFailures + log.providerFailures = rt.stats.providerFailures + (_ + 0)
    rw [hfailures]
    rfl
  case generationChanges =>
    show rt.stats.generationChanges + _ = rt.stats.generationChanges + (0 + Published.ofType _ _)
    rw [hgeneration, Nat.zero_add]
  case backpressureSignals | reclaimRequests | demotionRequests =>
    exact congrArg (_ + ·) ((hrequests _).trans (Nat.zero_add _).symm)
  case snapshots | pressureTransitions | policyChanges => rfl

/-- **What a step counts**: for its call and for what it publishes. -/
theorem stats_step (rt : PressureRuntime F) (op : Op F) :
    (step rt op).1.stats.settled
      = rt.stats.settled + (op.tally + ((step rt op).2.map Published.tally).sum) := by
  cases op with
  | setPolicy p =>
    show (rt.setPolicy p).stats.settled
      = rt.stats.settled + ({ policyChanges := if (validatePolicy p).isSome then 0 else 1 } + 0)
    unfold PressureRuntime.setPolicy
    by_cases hvalid : (validatePolicy p).isSome = true
    · rw [if_pos hvalid, if_pos hvalid]
      rfl
    · rw [if_neg hvalid, if_neg hvalid]
      rfl
  | setBudget id b =>
    show (rt.setBudget id b).stats.settled = _
    rw [rt.setBudget_eq id b]
    rfl
  | clearBudget | setHistoryLimit | registerProvider => rfl
  | refresh nowMs polls =>
    obtain ⟨log, hok, hends⟩ := refresh_polled rt nowMs polls
    have hfailures := pollAll_failures hok
    show (rt.refresh nowMs polls).1.stats.settled
      = _ + (_ + ((rt.refresh nowMs polls).2.map Published.tally).sum)
    rcases hends with hlog | ⟨hnot, heq⟩
    · rw [hlog.refresh_eq, List.map_singleton, List.sum_singleton]
      exact refreshStats_settled hlog (hfailures.trans (Nat.zero_add _))
    -- cut short: the failures so far, and nothing observed
    · have hnone : (Op.refresh nowMs polls).observes = [] := by rw [Op.observes, if_neg hnot]
      rw [heq]
      ext
      case observations =>
        show rt.stats.observations
          = rt.stats.observations + ((Op.refresh nowMs polls).observes.length + 0)
        rw [hnone]
        rfl
      case providerFailures =>
        show rt.stats.providerFailures + log.providerFailures = rt.stats.providerFailures + (_ + 0)
        rw [hfailures, Nat.zero_add]
        rfl
      all_goals rfl

/-- **A step counts its generation and its number.** -/
theorem numbers_step (rt : PressureRuntime F) (op : Op F) :
    (step rt op).1.generation + rt.stats.generationChanges
        = rt.generation + (step rt op).1.stats.generationChanges ∧
      (step rt op).1.snapshotId = rt.snapshotId + if op.isRefresh then 1 else 0 := by
  cases op with
  | setPolicy p =>
    show (rt.setPolicy p).generation + _ = _ + (rt.setPolicy p).stats.generationChanges ∧
      (rt.setPolicy p).snapshotId = rt.snapshotId + 0
    unfold PressureRuntime.setPolicy
    split_ifs <;> exact ⟨rfl, rfl⟩
  | setBudget id b =>
    show (rt.setBudget id b).generation + _ = _ + (rt.setBudget id b).stats.generationChanges ∧
      (rt.setBudget id b).snapshotId = rt.snapshotId + 0
    rw [rt.setBudget_eq id b]
    exact ⟨rfl, rfl⟩
  | clearBudget | setHistoryLimit | registerProvider => exact ⟨rfl, rfl⟩
  | refresh nowMs polls =>
    show (rt.refresh nowMs polls).1.generation + _
        = _ + (rt.refresh nowMs polls).1.stats.generationChanges ∧
      (rt.refresh nowMs polls).1.snapshotId = rt.snapshotId + 1
    rcases rt.refresh_cases nowMs polls with ⟨log, hlog⟩ | ⟨-, log, heq⟩
    · rw [hlog.refresh_eq]
      refine ⟨?_, rfl⟩
      show newGeneration rt.policy rt.budgets rt nowMs log + rt.stats.generationChanges
        = rt.generation + (rt.stats.generationChanges
          + if changed rt.policy rt.budgets rt nowMs log then 1 else 0)
      unfold newGeneration
      split_ifs <;> omega
    · rw [heq]
      exact ⟨rfl, rfl⟩

/-- **Telemetry accounts for the run.** After every run the counters of `RuntimeStats`
but `pressure_transitions` are what its calls and its publications count: accepted
policies, observations of completed refreshes, failures polled before an exception
got through, snapshots, requests by type and changes of generation. The generation
is the number of those changes, and the last snapshot number that of the refreshes.
Nothing is said of the members that `RuntimeStats` leaves out: those of admissions and
queries, stale observations, dropped events and the latency. -/
theorem telemetry_accounts (ops : List (Op F)) :
    (runFrom PressureRuntime.init ops).stats.settled
        = (ops.map Op.tally).sum
          + ((publishedBy PressureRuntime.init ops).map Published.tally).sum ∧
      (runFrom PressureRuntime.init ops).generation
        = (runFrom PressureRuntime.init ops).stats.generationChanges ∧
      (runFrom PressureRuntime.init ops).snapshotId = ops.countP Op.isRefresh := by
  refine ⟨?_, ?_, ?_⟩
  · have hcount := Machine.count_run step (fun rt : PressureRuntime F => rt.stats.settled)
      Op.tally Published.tally (I := fun _ => True) (s := PressureRuntime.init)
      (fun _ op (_ : op ∈ ops) _ => trivial) (fun rt op _ _ => stats_step rt op) trivial
    rw [hcount]
    exact zero_add _
  · refine Machine.run_invariant step (I := fun rt : PressureRuntime F =>
      rt.generation = rt.stats.generationChanges) ?_ rfl
    intro rt op _ h
    have hstep := (numbers_step rt op).1
    omega
  · have hcount := Machine.count_run step (fun rt : PressureRuntime F => rt.snapshotId)
      (fun op : Op F => if op.isRefresh then 1 else 0) (fun _ => 0)
      (I := fun _ => True) (s := PressureRuntime.init) (fun _ op (_ : op ∈ ops) _ => trivial)
      (fun rt op _ _ => by rw [(numbers_step rt op).2]; simp) trivial
    rw [hcount, Machine.sum_indicator]
    simp [PressureRuntime.init]

/-! ## Transitions -/

/-- The level events of a published batch. -/
def Published.transitions (pub : Published F) : Nat :=
  pub.events.countP fun e => e.type.isTransition

/-- The domains a batch announces that its snapshot has above normal. -/
def Published.arrivals (pub : Published F) : Nat :=
  pub.events.countP fun e =>
    e.domain.bind pub.snapshot.levelOf ≠ some .normal && e.type = .domainAdded

/-- A level event is made for a domain whose level is not the one it had. -/
theorem levelEvent_isSome (generation : Nat) (nowMs : UInt64) (prev : Snapshot F)
    (ds : DomainState F) : (levelEvent generation nowMs prev ds).isSome
      = (prev.findDomain ds.id).any fun pds => ds.level ≠ pds.level := by
  cases hfind : prev.findDomain ds.id with
  | none => simp [levelEvent, hfind]
  | some pds =>
    by_cases hlevel : ds.level = pds.level
    · simp [levelEvent, hfind, hlevel]
    · obtain ⟨e, he⟩ := levelEvent_of_ne generation nowMs hfind (Ne.symm hlevel)
      simp [he, hlevel]

section

variable {rt : PressureRuntime F} {nowMs : UInt64} {polls : List (Poll F)} {log : PollLog F}

/-- The level events of a batch, by entries. -/
theorem transitions_published (hlog : CompletesWith rt nowMs polls log) :
    (published rt.policy rt.budgets rt nowMs log).transitions
      = (newDomains rt.policy rt.budgets rt nowMs log).countP fun ds =>
          (rt.currentSnapshot.findDomain ds.id).any fun pds => ds.level ≠ pds.level := by
  have hlevels : ∀ l : List (DomainState F),
      (l.filterMap (levelEvent (newGeneration rt.policy rt.budgets rt nowMs log) nowMs
        rt.currentSnapshot)).countP (fun e => e.type.isTransition)
        = l.countP fun ds =>
            (rt.currentSnapshot.findDomain ds.id).any fun pds => ds.level ≠ pds.level := by
    intro l
    rw [List.countP_filterMap]
    refine List.countP_congr ?_
    intro ds _
    rw [← levelEvent_isSome (newGeneration rt.policy rt.budgets rt nowMs log) nowMs]
    cases hev : levelEvent _ nowMs rt.currentSnapshot ds with
    | none => simp
    | some e => simp [(PressureRuntime.levelEvent_spec hev).2]
  have hgeneration : (generationEvents rt.policy rt.budgets rt nowMs log).countP
      (fun e => e.type.isTransition) = 0 := by
    unfold generationEvents
    split_ifs <;> rfl
  have hrequests : ((newDomains rt.policy rt.budgets rt nowMs log).flatMap
      (requestEvents (newGeneration rt.policy rt.budgets rt nowMs log) nowMs)).countP
        (fun e => e.type.isTransition) = 0 := by
    rw [List.countP_eq_zero]
    intro e he htype
    obtain ⟨ds, -, hev⟩ := List.mem_flatMap.mp he
    have hrequest := (PressureRuntime.requestEvents_spec hev).2
    cases hkind : e.type <;> simp [hkind, PressureEventType.isTransition,
      PressureEventType.isRequest] at htype hrequest
  rw [Published.transitions, published, countP_stampIds fun _ _ => rfl,
    countP_batch hlog ⟨rfl, rfl, rfl, rfl⟩, hlevels, hgeneration, hrequests]
  omega

/-- The arrivals of a batch are what the one loop announces. -/
theorem filter_domainAdded (hlog : CompletesWith rt nowMs polls log) :
    (draftEvents rt.policy rt.budgets rt nowMs log).filter (fun e => e.type = .domainAdded)
      = addedEvents nowMs rt.currentSnapshot
          (swept rt.policy rt.budgets rt nowMs log).domains := by
  have hnone : ∀ es : List PressureEvent, (∀ e ∈ es, e.type ≠ .domainAdded) →
      es.filter (fun e => e.type = .domainAdded) = [] := fun es h =>
    List.filter_eq_nil_iff.mpr fun e he => by simpa using h e he
  have hpolls : log.events.filter (fun e => e.type = .domainAdded) = [] := by
    refine hnone _ ?_
    rw [(pollAll_adds hlog.polled).1, List.nil_append]
    intro e he
    obtain ⟨poll, -, hev⟩ := List.mem_flatMap.mp he
    rcases (Poll.mem_events hev).2 with htype | htype <;> rw [htype] <;> decide
  have hsweep : (swept rt.policy rt.budgets rt nowMs log).events.filter
      (fun e => e.type = .domainAdded) = [] := by
    refine hnone _ ?_
    rw [swept, sweepAll_events, List.nil_append]
    intro e he
    obtain ⟨pd, -, hev⟩ := List.mem_filterMap.mp he
    rcases PressureRuntime.sweepEvent_type hev with htype | htype <;> rw [htype] <;> decide
  have hadded : (addedEvents nowMs rt.currentSnapshot
      (swept rt.policy rt.budgets rt nowMs log).domains).filter (fun e => e.type = .domainAdded)
        = addedEvents nowMs rt.currentSnapshot
            (swept rt.policy rt.budgets rt nowMs log).domains :=
    List.filter_eq_self.mpr fun e he => by simp [PressureRuntime.addedEvents_type he]
  have hgeneration : (generationEvents rt.policy rt.budgets rt nowMs log).filter
      (fun e => e.type = .domainAdded) = [] := by
    unfold generationEvents
    split_ifs <;> rfl
  have hlevels : ((newDomains rt.policy rt.budgets rt nowMs log).filterMap
      (levelEvent (newGeneration rt.policy rt.budgets rt nowMs log) nowMs
        rt.currentSnapshot)).filter (fun e => e.type = .domainAdded) = [] := by
    refine hnone _ ?_
    intro e he htype
    obtain ⟨ds, -, hev⟩ := List.mem_filterMap.mp he
    have htransition := (PressureRuntime.levelEvent_spec hev).2
    rw [htype] at htransition
    cases htransition
  have hrequests : ((newDomains rt.policy rt.budgets rt nowMs log).flatMap
      (requestEvents (newGeneration rt.policy rt.budgets rt nowMs log) nowMs)).filter
        (fun e => e.type = .domainAdded) = [] := by
    refine hnone _ ?_
    intro e he htype
    obtain ⟨ds, -, hev⟩ := List.mem_flatMap.mp he
    have hrequest := (PressureRuntime.requestEvents_spec hev).2
    rw [htype] at hrequest
    cases hrequest
  rw [draftEvents, List.filter_append, List.filter_append, List.filter_append, List.filter_append,
    List.filter_append, hpolls, hsweep, hadded, hgeneration, hlevels, hrequests]
  simp

/-- The arrivals above normal, by entries. -/
theorem arrivals_published (hlog : CompletesWith rt nowMs polls log) :
    (published rt.policy rt.budgets rt nowMs log).arrivals
      = (swept rt.policy rt.budgets rt nowMs log).domains.countP fun ds =>
          (rt.currentSnapshot.findDomain ds.id).isNone
            && (published rt.policy rt.budgets rt nowMs log).snapshot.levelOf ds.id
              ≠ some .normal := by
  have hstamped : (published rt.policy rt.budgets rt nowMs log).arrivals
      = (draftEvents rt.policy rt.budgets rt nowMs log).countP fun e =>
          e.domain.bind (published rt.policy rt.budgets rt nowMs log).snapshot.levelOf
            ≠ some .normal && e.type = .domainAdded :=
    countP_stampIds (fun _ _ => rfl) _ _
  rw [hstamped, ← List.countP_filter, filter_domainAdded hlog, addedEvents, List.countP_map,
    List.countP_filter]
  refine List.countP_congr ?_
  intro ds _
  simp [makePressureEvent, and_comm]

/-- **One observation** of a domain whose state mirrors its entry: its level changes
exactly when that is announced, or when it arrives above normal. -/
theorem observed_transition (hmir : ∀ d, MirrorsAt d rt) (hlog : CompletesWith rt nowMs polls log)
    (hop : (Op.refresh nowMs polls).observes.Nodup) {ds : DomainState F}
    (hds : ds ∈ (interpreted rt.policy rt.budgets rt nowMs log).2) :
    let old := rt.currentSnapshot.findDomain ds.id
    let shown := (published rt.policy rt.budgets rt nowMs log).snapshot.levelOf ds.id
    decide (ds.level ≠ ds.previousLevel)
        = ((old.any fun pds => ds.level ≠ pds.level) || (old.isNone && shown ≠ some .normal)) ∧
      ((old.any fun pds => ds.level ≠ pds.level) && (old.isNone && shown ≠ some .normal))
          = false := by
  have hobs : ds.id ∈ PressureRuntime.observedIds log := by
    have hids : (interpreted rt.policy rt.budgets rt nowMs log).2.map DomainState.id
        = PressureRuntime.observedIds log := PressureRuntime.interpreted_ids
    exact hids ▸ List.mem_map_of_mem hds
  rcases seen_or_unseen hlog (List.nodup_iff_count_le_one.mp hop ds.id) with hun | ⟨sight, hseen⟩
  · exact absurd hun (PressureRuntime.mem_observedIds.mp hobs)
  obtain ⟨hentries, -⟩ := PressureRuntime.entriesOf_seen rt.policy rt.budgets rt nowMs hseen
  have hmem : respond (hostBlocked (swept rt.policy rt.budgets rt nowMs log).domains) ds
      ∈ (published rt.policy rt.budgets rt nowMs log).snapshot.entriesOf ds.id := by
    refine Snapshot.mem_entriesOf.mpr ⟨?_, rfl⟩
    refine List.mem_map_of_mem ?_
    rw [PressureRuntime.swept_domains]
    exact List.mem_append_left _ hds
  rw [hentries, List.mem_singleton] at hmem
  have hprevious : ds.previousLevel = ((rt.domainStates.lookup ds.id).getD
      (DomainRuntimeState.new rt.policy.hysteresis 16)).hysteresis.current :=
    congrArg DomainState.previousLevel hmem
  have hshown : (published rt.policy rt.budgets rt nowMs log).snapshot.levelOf ds.id
      = some ds.level :=
    (PressureRuntime.levelOf_seen hseen).trans
      (congrArg some (congrArg DomainState.level hmem).symm)
  dsimp only
  rw [hshown, hprevious]
  rcases hmir ds.id with ⟨hnone, hnil⟩ | ⟨st, pd, hst, hone, hcar⟩
  · have hnew : (HysteresisState.new rt.policy.hysteresis).current = .normal := rfl
    rw [hnone, Snapshot.findDomain_eq_head?, hnil]
    simp [hnew]
  · rw [hst, Snapshot.findDomain_eq_head?, hone]
    simp [hcar.level]

/-- **The transitions a refresh counts** are those it announces and the arrivals
above normal. -/
theorem transitions_refreshed (hmir : ∀ d, MirrorsAt d rt)
    (hnd : rt.currentSnapshot.ids.Nodup) (hlog : CompletesWith rt nowMs polls log)
    (hop : (Op.refresh nowMs polls).observes.Nodup) :
    (interpreted rt.policy rt.budgets rt nowMs log).2.countP (fun ds => ds.level ≠ ds.previousLevel)
      = (published rt.policy rt.budgets rt nowMs log).transitions
        + (published rt.policy rt.budgets rt nowMs log).arrivals := by
  have hold : ∀ ds ∈ (rt.currentSnapshot.domains.filter
      (retains log.health (PressureRuntime.observedIds log))).map (keeper nowMs),
        ∃ pd, rt.currentSnapshot.findDomain ds.id = some pd ∧ ds.level = pd.level := by
    intro ds hds
    obtain ⟨pd, hpd, rfl⟩ := List.mem_map.mp hds
    exact ⟨pd, Snapshot.findDomain_of_mem hnd (List.mem_filter.mp hpd).1, rfl⟩
  rw [transitions_published hlog, arrivals_published hlog, newDomains, crossTier, List.countP_map,
    PressureRuntime.swept_domains, List.countP_append, List.countP_append]
  -- what is retained keeps its level and does not arrive
  have hkept : ((rt.currentSnapshot.domains.filter
      (retains log.health (PressureRuntime.observedIds log))).map (keeper nowMs)).countP
        ((fun ds => (rt.currentSnapshot.findDomain ds.id).any fun pds => ds.level ≠ pds.level) ∘
          respond (hostBlocked ((interpreted rt.policy rt.budgets rt nowMs log).2
            ++ (rt.currentSnapshot.domains.filter
              (retains log.health (PressureRuntime.observedIds log))).map (keeper nowMs))))
                  = 0 := by
    rw [List.countP_eq_zero]
    intro ds hds
    obtain ⟨pd, hfind, hlevel⟩ := hold ds hds
    simp [hfind, hlevel]
  have harrived : ((rt.currentSnapshot.domains.filter
      (retains log.health (PressureRuntime.observedIds log))).map (keeper nowMs)).countP
        (fun ds => (rt.currentSnapshot.findDomain ds.id).isNone
          && (published rt.policy rt.budgets rt nowMs log).snapshot.levelOf ds.id
            ≠ some .normal) = 0 := by
    rw [List.countP_eq_zero]
    intro ds hds
    obtain ⟨pd, hfind, -⟩ := hold ds hds
    simp [hfind]
  rw [hkept, harrived, Nat.add_zero, Nat.add_zero]
  exact Machine.countP_split fun ds hds => observed_transition hmir hlog hop hds

end

/-- **What a step counts as transitions.** -/
theorem transitions_step {rt : PressureRuntime F} (hmir : ∀ d, MirrorsAt d rt)
    (hnd : rt.currentSnapshot.ids.Nodup) {op : Op F} (hop : op.observes.Nodup) :
    (step rt op).1.stats.pressureTransitions = rt.stats.pressureTransitions
      + ((step rt op).2.map fun pub => pub.transitions + pub.arrivals).sum := by
  cases op with
  | setPolicy p =>
    show (rt.setPolicy p).stats.pressureTransitions = _
    unfold PressureRuntime.setPolicy
    split_ifs <;> rfl
  | setBudget id b =>
    show (rt.setBudget id b).stats.pressureTransitions = _
    rw [rt.setBudget_eq id b]
    rfl
  | clearBudget | setHistoryLimit | registerProvider => rfl
  | refresh nowMs polls =>
    show (rt.refresh nowMs polls).1.stats.pressureTransitions
      = _ + ((rt.refresh nowMs polls).2.map fun pub => pub.transitions + pub.arrivals).sum
    rcases rt.refresh_cases nowMs polls with ⟨log, hlog⟩ | ⟨-, log, heq⟩
    · rw [hlog.refresh_eq, List.map_singleton, List.sum_singleton,
        ← transitions_refreshed hmir hnd hlog hop]
      rfl
    · rw [heq]
      rfl

/-- **Transitions account for the announcements.** In a run that replaces no policy
and in which no refresh observes an id twice, `pressure_transitions` is the number of
level events published, and of domains that were announced as added and published
above normal at once. -/
theorem transitions_accounted (ops : List (Op F)) (hpol : ∀ op ∈ ops, op.setsPolicy = false)
    (hops : ∀ op ∈ ops, op.observes.Nodup) :
    (runFrom PressureRuntime.init ops).stats.pressureTransitions
      = ((publishedBy PressureRuntime.init ops).map fun pub =>
          pub.transitions + pub.arrivals).sum := by
  have hcount := Machine.count_run step
    (fun rt : PressureRuntime F => rt.stats.pressureTransitions) (fun _ => 0)
    (fun pub => pub.transitions + pub.arrivals)
    (I := fun rt => (∀ d, MirrorsAt d rt) ∧ rt.currentSnapshot.ids.Nodup)
    (s := PressureRuntime.init)
    (fun rt op (hop : op ∈ ops) h => ⟨fun d => mirrorsAt_step (h.1 d) (hpol op hop)
      (List.nodup_iff_count_le_one.mp (hops op hop) d), ids_nodup_step h.2 (hops op hop)⟩)
    (fun rt op hop h => by rw [transitions_step h.1 h.2 (hops op hop), Nat.zero_add])
    ⟨fun d => Or.inl ⟨rfl, rfl⟩, List.nodup_nil⟩
  rw [hcount]
  simp [PressureRuntime.init]

/-- An accelerator arrives full, empties and fills again. -/
def arrivesFull : List (Op ℚ) :=
  [.registerProvider "gpu"] ++
      [(1000, 99), (60000, 10), (120000, 10), (180000, 10), (240000, 99)].map
    fun (now, used) => .refresh now [{ name := "gpu", outcome := .returned { observations :=
      [{ id := { high := 0, low := 1 }, type := .acceleratorMemory, totalCapacity := 100,
         committed := used }] } }]

/-- Three transitions counted: the arrival, which no level event announces, and two
that are announced. -/
theorem transitions_accounted_full :
    (runFrom PressureRuntime.init arrivesFull).stats.pressureTransitions
      = ((publishedBy PressureRuntime.init arrivesFull).map fun pub =>
          pub.transitions + pub.arrivals).sum ∧
      (publishedBy PressureRuntime.init arrivesFull).map
          (fun pub => (pub.transitions, pub.arrivals))
        = [(0, 1), (0, 0), (1, 0), (0, 0), (1, 0)] :=
  ⟨transitions_accounted arrivesFull (by decide +kernel) (by decide +kernel), by decide +kernel⟩

end MemoryPressure
