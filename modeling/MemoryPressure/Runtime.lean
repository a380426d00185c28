import MemoryPressure.Events
import MemoryPressure.Interpretation

/-!
# The runtime and one refresh (`runtime.h`, `runtime.cpp`)

`PressureRuntime` holds the members `refresh` reads and writes; `refresh` is
the source's single loop in the source's order:

1. poll every provider (`pollOne`): statuses, warnings, observations;
2. interpret the observations (`interpretAll`);
3. sweep the previous snapshot for domains nobody observed: retain them as
   stale or remove them (`sweepOne`), then announce the added ones;
4. cross-tier responses, aggregate, generation;
5. level and request events, publication.

Each of these is a definition of its own with its lines in the source, on the locals of the
source (`PollLog`, `Sweep`); `published` and `refreshed` put them together, as functions of
the policy, the budgets, the members and the polling log.

**What is an input.** What a provider answers is an input of the refresh (a `Poll`): it may
return any sample, throw a `std::exception`, or throw anything else. The source catches the
second kind and not the third, which leaves `refresh` in the polling loop, before anything
is written but the counters (`cutShort`). Providers are polled in the order of an unordered
map, so the order of the polls is an input too.

**What is left out.** Real time (`refresh_latency_us`), and subscriptions, which only receive
the finished batch and are modelled with its delivery (`Concurrency.lean`, `Session.lean`).
The operations here run without interruption; `Undisturbed.lean` relates them to threads.
-/

namespace MemoryPressure

variable {F : Type} [Double F]

/-! ## Providers as seen by one refresh -/

/-- `ProviderSample` (provider.h:10). -/
structure ProviderSample (F : Type) [Double F] where
  status : ProviderStatus := .healthy
  observations : List (DomainObservation F) := []
  error : String := ""
  sampledAtMs : UInt64 := 0

/-- How one `prov->sample(now_ms)` ended: it returned, it threw a
`std::exception` (which `refresh` catches), or it threw anything else (which
`refresh` lets through). -/
inductive SampleOutcome (F : Type) [Double F] where
  | returned (sample : ProviderSample F)
  | threw (what : String)
  | escaped

/-- One registered provider and how its sample ended. -/
structure Poll (F : Type) [Double F] where
  name : String
  outcome : SampleOutcome F

namespace SampleOutcome

/-- The status the health map records for a sample (runtime.cpp:208 and 211). -/
def health : SampleOutcome F → ProviderStatus
  | .returned sample => sample.status
  | .threw _ => .failed
  | .escaped => .failed

/-- The observations a sample contributes. -/
def observations : SampleOutcome F → List (DomainObservation F)
  | .returned sample => sample.observations
  | .threw _ => []
  | .escaped => []

/-- The sample ended in an exception that `refresh` does not catch. -/
def escapes : SampleOutcome F → Bool
  | .escaped => true
  | _ => false

end SampleOutcome

/-- The locals of the polling loop (runtime.cpp:176–186). -/
structure PollLog (F : Type) [Double F] where
  health : Finmap (fun _ : String => ProviderStatus) := ∅
  sightings : List (Sighting F) := []
  events : List PressureEvent := []
  warnings : List String := []
  staleData : Bool := false
  partialData : Bool := false
  providerFailures : Nat := 0

/-- What a returned sample's status adds to the log (runtime.cpp:192–207). -/
def PollLog.noteStatus (log : PollLog F) (nowMs : UInt64) (name : String)
    (sample : ProviderSample F) : PollLog F :=
  match sample.status with
  | .failed =>
    { log with
      providerFailures := log.providerFailures + 1
      events := log.events ++
        [makePressureEvent .providerFailed 0 nowMs none (name ++ " failed: " ++ sample.error) 0]
      warnings := log.warnings ++ [name ++ " failed: " ++ sample.error]
      partialData := true }
  | .stale =>
    { log with
      events :=
          log.events ++ [makePressureEvent .providerStale 0 nowMs none (name ++ " is stale") 0]
      staleData := true
      warnings := log.warnings ++ [name ++ " stale"] }
  | .unavailable =>
    { log with
      events := log.events ++
        [makePressureEvent .providerFailed 0 nowMs none (name ++ " unavailable") 0]
      partialData := true }
  | .partialData => { log with partialData := true }
  | .healthy => log

/-- One turn of the polling loop (runtime.cpp:188–218); an escaping exception
leaves the loop, and the refresh, with the log so far. -/
def pollOne (nowMs : UInt64) (log : PollLog F) (poll : Poll F) : Except (PollLog F) (PollLog F) :=
  match poll.outcome with
  | .returned sample =>
    let noted := log.noteStatus nowMs poll.name sample
    .ok { noted with
      health := noted.health.insert poll.name sample.status
      sightings := noted.sightings ++ sample.observations.map fun obs => (poll.name, obs) }
  | .threw what =>
    .ok { log with
      health := log.health.insert poll.name .failed
      providerFailures := log.providerFailures + 1
      warnings := log.warnings ++ [poll.name ++ " threw: " ++ what]
      partialData := true }
  | .escaped => .error log

/-- The polling loop. -/
def pollAll (nowMs : UInt64) : PollLog F → List (Poll F) → Except (PollLog F) (PollLog F)
  | log, [] => .ok log
  | log, poll :: polls =>
    match pollOne nowMs log poll with
    | .error log' => .error log'
    | .ok log' => pollAll nowMs log' polls

/-! ## Retention and removal -/

/-- `Failed`, `Stale` or `Unavailable` (runtime.cpp:320). -/
def ProviderStatus.notFresh : ProviderStatus → Bool
  | .failed | .stale | .unavailable => true
  | .healthy | .partialData => false

/-- `ph` (runtime.cpp:319): a provider the health map does not know counts as
unavailable. -/
def healthFor (health : Finmap (fun _ : String => ProviderStatus)) (provider : String) :
    ProviderStatus :=
  (health.lookup provider).getD .unavailable

/-- `keeper` (runtime.cpp:321–325): the stale copy of a domain nobody observed. -/
def keeper (nowMs : UInt64) (pd : DomainState F) : DomainState F :=
  { pd with
    validity := .stale
    confidence := .low
    timestampMs := nowMs
    explanation := pd.explanation ++ " [retained; provider " ++ pd.provider ++ " not fresh]" }

/-- The locals of the retention loop. -/
structure Sweep (F : Type) [Double F] where
  domains : List (DomainState F)
  domainStates : DomainStates F
  events : List PressureEvent := []
  staleData : Bool

/-- One turn of the retention loop (runtime.cpp:316–333). -/
def sweepOne (nowMs : UInt64) (health : Finmap (fun _ : String => ProviderStatus))
    (observedIds : List PressureDomainId) (acc : Sweep F) (pd : DomainState F) : Sweep F :=
  if pd.id ∈ observedIds then acc
  else if (healthFor health pd.provider).notFresh then
    { acc with
      staleData := true
      events := acc.events ++
        [makePressureEvent .providerStale 0 nowMs (some pd.id)
            ("retained stale: " ++ pd.provider) 0]
      domains := acc.domains ++ [keeper nowMs pd] }
  else
    { acc with
      events := acc.events ++
        [makePressureEvent .domainRemoved 0 nowMs (some pd.id) "domain removed" 0]
      domainStates := acc.domainStates.erase pd.id }

/-- The retention loop over the previous snapshot (runtime.cpp:316). -/
def sweepAll (nowMs : UInt64) (health : Finmap (fun _ : String => ProviderStatus))
    (observedIds : List PressureDomainId) (start : Sweep F)
    (prev : List (DomainState F)) : Sweep F :=
  prev.foldl (sweepOne nowMs health observedIds) start

/-- The `DomainAdded` events (runtime.cpp:336–341). -/
def addedEvents (nowMs : UInt64) (prev : Snapshot F) (domains : List (DomainState F)) :
    List PressureEvent :=
  (domains.filter fun d => (prev.findDomain d.id).isNone).map fun d =>
    makePressureEvent .domainAdded 0 nowMs (some d.id) ("domain " ++ d.type.toString ++ " added") 0

/-! ## Responses across tiers -/

/-- `is_accelerator` (runtime.cpp:21). -/
def isAccelerator (t : DomainType) : Bool := t = .acceleratorMemory

/-- `is_hostlike` (runtime.cpp:22). -/
def isHostlike (t : DomainType) : Bool :=
  t = .hostMemory || t = .pinnedHostMemory || t = .sharedHostMemory || t = .processCommit ||
    t = .systemCommit

/-- `role_for` (runtime.cpp:28). -/
def roleFor (t : DomainType) : TierRole :=
  if isAccelerator t then .accelerator
  else if t = .hostMemory ∨ t = .systemCommit ∨ t = .processCommit then .root
  else if t = .pinnedHostMemory ∨ t = .sharedHostMemory then .staging
  else if t = .persistentStorageCapacity ∨ t = .fileBackedMemory then .persistent
  else .custom

/-- `initial_actions` (runtime.cpp:72). -/
def initialActions : PressureLevel → List ResponseAction
  | .normal => [.none]
  | .elevated => [.warn]
  | .high => [.warn, .requestReclaim]
  | .critical => [.requestDemotion, .requestReclaim, .reduceAdmission, .throttle]
  | .exhausted => [.emergencyStopGrowth, .rejectNewWork, .requestDemotion, .requestReclaim]
  | .unknown => [.none]

/-- `build_explanation` (runtime.cpp:45). -/
def buildExplanation (d : DomainState F) : String :=
  d.type.toString ++ " is " ++ d.level.toString
    ++ " because governed capacity=" ++ toString d.totalCapacity.toNat
    ++ " committed=" ++ toString d.committed.toNat
    ++ " available=" ++ toString d.available.toNat
    ++ " reserved=" ++ toString d.reservedBytes.toNat
    ++ " utilization=" ++ Double.toText d.utilization
    ++ " score=" ++ Double.toText d.score
    ++ " trend=" ++ d.trend.toString

/-- `host_present` (runtime.cpp:350). -/
def hostPresent (domains : List (DomainState F)) : Bool := domains.any fun d => isHostlike d.type

/-- `host_sev` (runtime.cpp:350): the worst host-like severity. -/
def hostSev (domains : List (DomainState F)) : Nat :=
  domains.foldl
    (fun acc d => if isHostlike d.type then max acc (severityFloor d.level) else acc) 0

/-- The host tier cannot take displaced bytes (runtime.cpp:361). -/
def hostBlocked (domains : List (DomainState F)) : Bool :=
  !hostPresent domains || (hostSev domains : Int) ≥ severityRank .critical

/-- The second cross-tier pass for one domain (runtime.cpp:354–366). -/
def respond (blocked : Bool) (d : DomainState F) : DomainState F :=
  let base := initialActions d.level
  let responses :=
    if isAccelerator d.type ∧ severityRank d.level ≥ severityRank .high ∧ blocked then
      base.filter fun a => a ≠ .requestDemotion
    else base
  let d' := { d with responses := responses }
  { d' with explanation := buildExplanation d' }

/-- The cross-tier response policy (runtime.cpp:344–366). -/
def crossTier (domains : List (DomainState F)) : List (DomainState F) :=
  domains.map (respond (hostBlocked domains))

/-! ## Aggregate -/

/-- `agg_sev` (runtime.cpp:368). -/
def aggSev (domains : List (DomainState F)) : Nat :=
  domains.foldl (fun acc d => max acc (severityFloor d.level)) 0

/-- `aggregate_level` (runtime.cpp:378–390). -/
def aggregateLevelOf (domains : List (DomainState F)) : PressureLevel :=
  if domains.isEmpty then .unknown
  else if (aggSev domains : Int) ≥ severityRank .exhausted then .exhausted
  else if (aggSev domains : Int) ≥ severityRank .critical then .critical
  else if (aggSev domains : Int) ≥ severityRank .high then .high
  else if (aggSev domains : Int) ≥ severityRank .elevated then .elevated
  else .normal

/-- `aggregate_score` (runtime.cpp:368–391). -/
def aggregateScoreOf (pol : PressurePolicy F) (domains : List (DomainState F)) : F :=
  let sums := domains.foldl
    (fun (acc : F × F) d =>
      let rw := (pol.aggregate.roleWeight.lookup (roleFor d.type)).getD 1.0
      (acc.1 + d.score * rw, acc.2 + rw)) (0.0, 0.0)
  if sums.2 > 0.0 then Double.clamp01 (sums.1 / sums.2) else 0.0

/-! ## Level and request events -/

/-- The level event of one domain against its previous state
(runtime.cpp:411–432), if its level changed. -/
def levelEvent (generation : Nat) (nowMs : UInt64) (prev : Snapshot F) (ds : DomainState F) :
    Option PressureEvent :=
  match prev.findDomain ds.id with
  | none => none
  | some pds =>
    if ds.level = pds.level then none
    else if severityRank ds.level > severityRank pds.level then
      if severityRank pds.level ≤ severityRank .normal then
        some (makePressureEvent .pressureEntered generation nowMs (some ds.id)
          ("entered " ++ ds.level.toString) (severityFloor ds.level))
      else
        some (makePressureEvent .pressureEscalated generation nowMs (some ds.id)
          ("escalated to " ++ ds.level.toString) (severityFloor ds.level))
    else if ds.level = .normal then
      some (makePressureEvent .pressureRecovered generation nowMs (some ds.id)
        "recovered to NORMAL" 0)
    else
      some (makePressureEvent .pressureRelieved generation nowMs (some ds.id)
        ("relieved to " ++ ds.level.toString) (severityFloor ds.level))

/-- The event of one recommended action (runtime.cpp:437–450), if it has one. -/
def requestEvent (generation : Nat) (nowMs : UInt64) (ds : DomainState F) (a : ResponseAction) :
    Option PressureEvent :=
  match a with
  | .requestReclaim =>
    some (makePressureEvent .reclaimRequested generation nowMs (some ds.id) "reclaim requested"
      (severityFloor ds.level))
  | .requestDemotion =>
    some (makePressureEvent .demotionRequested generation nowMs (some ds.id) "demotion requested"
      (severityFloor ds.level))
  | .reduceAdmission | .rejectNewWork =>
    some (makePressureEvent .backpressureIssued generation nowMs (some ds.id)
      ("backpressure:" ++ a.toString) (severityFloor ds.level))
  | _ => none

/-- The request events of one domain. -/
def requestEvents (generation : Nat) (nowMs : UInt64) (ds : DomainState F) : List PressureEvent :=
  ds.responses.filterMap (requestEvent generation nowMs ds)

/-! ## The runtime -/

/-- `RuntimeStats` (runtime.h:24), the counters that `refresh` and `set_policy` keep.
Left out are the four `admission_*`, which only `admit` writes (`AdmissionStats`),
`stale_observations`,
`event_dropped` and `query_count`, which nothing writes, and `refresh_latency_us`, which
is a measured time. The source counts in 64 bits and these are naturals: that a counter
comes round after `2 ^ 64` is not modelled. -/
structure RuntimeStats where
  observations : Nat := 0
  snapshots : Nat := 0
  pressureTransitions : Nat := 0
  providerFailures : Nat := 0
  backpressureSignals : Nat := 0
  reclaimRequests : Nat := 0
  demotionRequests : Nat := 0
  policyChanges : Nat := 0
  generationChanges : Nat := 0
  deriving DecidableEq, Repr

/-- `PressureRuntime` (runtime.h:55): the members behind `refresh`. `providers`
maps a registration key to the name of the provider registered under it.
`provider_health_` is read by `refresh` and written by nobody. The numbers of
generations, snapshots and events are 64 bits wide in the source and naturals here, so
that they never come round. -/
structure PressureRuntime (F : Type) [Double F] where
  policy : PressurePolicy F := defaultPolicy
  currentSnapshot : Snapshot F := {}
  budgets : Budgets := ∅
  providers : Finmap (fun _ : PressureDomainId => String) := ∅
  domainStates : DomainStates F := ∅
  providerHealth : Finmap (fun _ : String => ProviderStatus) := ∅
  history : List (Snapshot F) := []
  historyLimit : Nat := 64
  generation : Nat := 0
  snapshotId : Nat := 0
  eventId : Nat := 0
  stats : RuntimeStats := {}

/-- What a completed refresh publishes: the snapshot and its event batch. -/
structure Published (F : Type) [Double F] where
  snapshot : Snapshot F
  events : List PressureEvent

/-- `PressureRuntime::PressureRuntime` (runtime.cpp:88). -/
def PressureRuntime.init : PressureRuntime F := {}

namespace PressureRuntime

/-- `PressureRuntime::set_policy` (runtime.cpp:100), run without interruption. -/
def setPolicy (rt : PressureRuntime F) (p : PressurePolicy F) : PressureRuntime F :=
  if (validatePolicy p).isSome then rt
  else
    { rt with
      domainStates := Keyed.mapVal
        (fun st => { st with hysteresis := HysteresisState.new p.hysteresis }) rt.domainStates
      policy := p
      stats := { rt.stats with policyChanges := rt.stats.policyChanges + 1 } }

/-- `PressureRuntime::set_budget` (runtime.cpp:121). -/
def setBudget (rt : PressureRuntime F) (id : PressureDomainId) (b : Budget) : PressureRuntime F :=
  if (validateBudget b).isSome then rt else { rt with budgets := rt.budgets.insert id b }

/-- All that `set_policy` touches. -/
theorem setPolicy_eq (rt : PressureRuntime F) (p : PressurePolicy F) :
    rt.setPolicy p = { rt with
      domainStates := (rt.setPolicy p).domainStates
      policy := (rt.setPolicy p).policy
      stats := (rt.setPolicy p).stats } := by
  unfold setPolicy
  split_ifs <;> rfl

/-- All that `set_budget` touches. -/
theorem setBudget_eq (rt : PressureRuntime F) (id : PressureDomainId) (b : Budget) :
    rt.setBudget id b = { rt with budgets := (rt.setBudget id b).budgets } := by
  unfold setBudget
  split_ifs <;> rfl

/-- `PressureRuntime::clear_budget` (runtime.cpp:129). -/
def clearBudget (rt : PressureRuntime F) (id : PressureDomainId) : PressureRuntime F :=
  { rt with budgets := rt.budgets.erase id }

/-- `PressureRuntime::set_history_limit` (runtime.h:102). -/
def setHistoryLimit (rt : PressureRuntime F) (n : Nat) : PressureRuntime F :=
  { rt with historyLimit := n }

/-- The key a provider is registered under (runtime.cpp:118). -/
def providerKey (name : String) : PressureDomainId :=
  { high := 0x70726F76, low := PressureDomainId.fnv1a ("provider::" ++ name) }

/-- `PressureRuntime::register_provider` (runtime.cpp:115). -/
def registerProvider (rt : PressureRuntime F) (name : String) : PressureRuntime F :=
  { rt with providers := rt.providers.insert (providerKey name) name }

/-! ### `refresh`, phase by phase

`pol` and `budgets` are the policy and the budgets the refresh loaded at its
start. -/

section

variable (pol : PressurePolicy F) (budgets : Budgets) (rt : PressureRuntime F) (nowMs : UInt64)
  (log : PollLog F)

/-- The ids observed in this refresh, `observed_ids`. -/
def observedIds (log : PollLog F) : List PressureDomainId :=
  log.sightings.map fun sight => sight.2.id

/-- Interpretation: the retained states and the fresh domain states. -/
def interpreted : DomainStates F × List (DomainState F) :=
  interpretAll pol budgets nowMs rt.domainStates log.sightings

/-- Retention and removal of what nobody observed. -/
def swept : Sweep F :=
  sweepAll nowMs log.health (observedIds log)
    { domains := (interpreted pol budgets rt nowMs log).2
      domainStates := (interpreted pol budgets rt nowMs log).1
      staleData := log.staleData }
    rt.currentSnapshot.domains

/-- The domains as published. -/
def newDomains : List (DomainState F) := crossTier (swept pol budgets rt nowMs log).domains

/-- The new snapshot, before its generation and event count are known. -/
def draftSnapshot : Snapshot F where
  id := rt.snapshotId + 1
  timestampMs := nowMs
  policyVersion := pol.version
  policyName := pol.name
  domains := newDomains pol budgets rt nowMs log
  providerHealth := log.health
  aggregateLevel := aggregateLevelOf (newDomains pol budgets rt nowMs log)
  aggregateScore := aggregateScoreOf pol (newDomains pol budgets rt nowMs log)
  aggregateExplanation := "aggregate driven by max-severity domain"
  warnings := log.warnings
  staleData := (swept pol budgets rt nowMs log).staleData
  partialData := log.partialData
  confidence := if log.partialData then .medium else .high
  provenance := .runtimeRegistration

/-- `changed` (runtime.cpp:400). -/
def changed : Bool :=
  (diffSnapshots rt.currentSnapshot (draftSnapshot pol budgets rt nowMs log)).any

/-- `generation_` after this refresh. -/
def newGeneration : Nat :=
  if changed pol budgets rt nowMs log then rt.generation + 1 else rt.generation

/-- The `GenerationChanged` event (runtime.cpp:404), if any. -/
def generationEvents : List PressureEvent :=
  if changed pol budgets rt nowMs log then
    [makePressureEvent .generationChanged (newGeneration pol budgets rt nowMs log) nowMs none
      ("generation " ++ toString (newGeneration pol budgets rt nowMs log)) 0]
  else []

/-- The batch of this refresh in the order its events are made, not yet
numbered. -/
def draftEvents : List PressureEvent :=
  log.events
    ++ (swept pol budgets rt nowMs log).events
    ++ addedEvents nowMs rt.currentSnapshot (swept pol budgets rt nowMs log).domains
    ++ generationEvents pol budgets rt nowMs log
    ++ (newDomains pol budgets rt nowMs log).filterMap
        (levelEvent (newGeneration pol budgets rt nowMs log) nowMs rt.currentSnapshot)
    ++ (newDomains pol budgets rt nowMs log).flatMap
        (requestEvents (newGeneration pol budgets rt nowMs log) nowMs)

/-- The published snapshot and batch. -/
def published : Published F where
  snapshot :=
    { draftSnapshot pol budgets rt nowMs log with
      generation := newGeneration pol budgets rt nowMs log
      events :=
        { count := UInt32.ofNat (draftEvents pol budgets rt nowMs log).length, dropped := 0 } }
  events := stampIds rt.eventId (draftEvents pol budgets rt nowMs log)

/-- The telemetry of a completed refresh. -/
def refreshStats : RuntimeStats :=
  let ofType (t : PressureEventType) : Nat :=
    (draftEvents pol budgets rt nowMs log).countP fun e => e.type = t
  { observations := rt.stats.observations + log.sightings.length
    snapshots := rt.stats.snapshots + 1
    pressureTransitions := rt.stats.pressureTransitions +
      (interpreted pol budgets rt nowMs log).2.countP fun ds => ds.level ≠ ds.previousLevel
    providerFailures := rt.stats.providerFailures + log.providerFailures
    backpressureSignals := rt.stats.backpressureSignals + ofType .backpressureIssued
    reclaimRequests := rt.stats.reclaimRequests + ofType .reclaimRequested
    demotionRequests := rt.stats.demotionRequests + ofType .demotionRequested
    policyChanges := rt.stats.policyChanges
    generationChanges := rt.stats.generationChanges +
      if changed pol budgets rt nowMs log then 1 else 0 }

/-- The members after a completed refresh. -/
def refreshed : PressureRuntime F :=
  let pub := published pol budgets rt nowMs log
  let pushed := rt.history ++ [pub.snapshot]
  { rt with
    currentSnapshot := pub.snapshot
    domainStates := (swept pol budgets rt nowMs log).domainStates
    history := pushed.drop (pushed.length - rt.historyLimit)
    generation := newGeneration pol budgets rt nowMs log
    snapshotId := rt.snapshotId + 1
    eventId := rt.eventId + pub.events.length
    stats := refreshStats pol budgets rt nowMs log }

/-- The members after a refresh an escaping exception cut short: ids are used
up, nothing is published. -/
def cutShort (rt : PressureRuntime F) (log : PollLog F) : PressureRuntime F :=
  { rt with
    snapshotId := rt.snapshotId + 1
    eventId := rt.eventId + log.events.length
    stats := { rt.stats with
      providerFailures := rt.stats.providerFailures + log.providerFailures } }

end

/-- `PressureRuntime::refresh` (runtime.cpp:158) with the policy and budgets it
loaded at its start. -/
def refreshWith (pol : PressurePolicy F) (budgets : Budgets) (rt : PressureRuntime F)
    (nowMs : UInt64) (polls : List (Poll F)) : PressureRuntime F × List (Published F) :=
  match pollAll nowMs { health := rt.providerHealth } polls with
  | .error log => (rt.cutShort log, [])
  | .ok log => (refreshed pol budgets rt nowMs log, [published pol budgets rt nowMs log])

/-- `PressureRuntime::refresh` (runtime.cpp:158), run without interruption. -/
def refresh (rt : PressureRuntime F) (nowMs : UInt64) (polls : List (Poll F)) :
    PressureRuntime F × List (Published F) :=
  refreshWith rt.policy rt.budgets rt nowMs polls

end PressureRuntime

end MemoryPressure
