import Mathlib.Data.Finmap
import MemoryPressure.Types
import MemoryPressure.Arithmetic

/-!
# The versioned policy (`policy.h`, `core.cpp`)

Thresholds, debounce configuration, score weights, aggregation and response
rules, with `validate_policy` in the order the source runs its checks.

`validatePolicy` answers with the message of the first check that fails, or with nothing:
what matters to callers is whether it is `none`, and to whoever reads the error, which
check it was. The checks bound the nine thresholds to the unit interval and put them in
the ascending order of their windows, ask finite weights that are not negative, and reject a
queue bound or a dwell of zero. They do not look at every field: the role weights of the
aggregation, the response rules and the freshness bounds pass whatever they are, which
later modules have to live with.

The numbers are of the type parameter `F` (`Arithmetic.lean`). Comparisons of thresholds
are those of the source, so that a `NaN` fails the check that compares it.
`validatePolicy_defaultPolicy` says that the default policy passes its own check.
-/

namespace MemoryPressure

/-- `Thresholds` (policy.h:22): utilization fractions. -/
structure Thresholds (F : Type) [Double F] where
  normalExit : F := 0.40
  elevatedEnter : F := 0.60
  elevatedExit : F := 0.50
  highEnter : F := 0.85
  highExit : F := 0.78
  criticalEnter : F := 0.92
  criticalExit : F := 0.86
  exhaustedEnter : F := 0.985
  exhaustedExit : F := 0.93

/-- `HysteresisConfig` (policy.h:38). -/
structure HysteresisConfig (F : Type) [Double F] where
  minDwellObservations : UInt32 := 2
  minDwellDurationMs : F := 0.0
  escalationDelayMs : F := 0.0
  recoveryDelayMs : F := 0.0
  immediateEmergencyEscalation : Bool := true
  maxDebounceObservations : UInt32 := 4

/-- `ScoreWeights` (policy.h:48). -/
structure ScoreWeights (F : Type) [Double F] where
  utilization : F := 1.0
  freeDeficit : F := 1.0
  reserveDeficit : F := 1.0
  growthRate : F := 0.5
  allocationFailure : F := 2.0
  fragmentation : F := 0.25
  reclaimableDeficit : F := 0.5
  confidencePenalty : F := 0.5
  stalePenalty : F := 0.75

/-- `AggregateConfig` (policy.h:61). -/
structure AggregateConfig (F : Type) [Double F] where
  considerHierarchy : Bool := true
  roleWeight : Finmap (fun _ : TierRole => F) := ∅
  bottleneckPenalty : F := 1.0
  reserveExhaustionPenalty : F := 1.25
  responseFeasibilityPenalty : F := 0.75

/-- `ResponseRule` (policy.h:70). -/
structure ResponseRule where
  level : PressureLevel := .high
  actions : List ResponseAction := []

/-- `FreshnessConfig` (policy.h:77). -/
structure FreshnessConfig where
  defaultMaxAgeUs : UInt64 := 10000000
  perProviderMaxAgeUs : Finmap (fun _ : String => UInt64) := ∅

/-- `PressurePolicy` (policy.h:83). -/
structure PressurePolicy (F : Type) [Double F] where
  version : UInt64 := 1
  name : String := "default"
  thresholds : Thresholds F := {}
  hysteresis : HysteresisConfig F := {}
  weights : ScoreWeights F := {}
  aggregate : AggregateConfig F := {}
  freshness : FreshnessConfig := {}
  responseRules : List ResponseRule := []
  maxQueuedEvents : UInt64 := 4096
  maxReliefBytes : UInt64 := 18446744073709551615

variable {F : Type} [Double F]

/-- `in01` (core.cpp:95). -/
def in01 (v : F) : Bool := v ≥ 0.0 && v ≤ 1.0 && Double.isFinite v

/-- `wok` (core.cpp:117). -/
def weightOk (v : F) : Bool := v ≥ 0.0 && Double.isFinite v

/-- All nine thresholds are finite fractions (core.cpp:100). -/
def Thresholds.allIn01 (t : Thresholds F) : Bool :=
  in01 t.normalExit && in01 t.elevatedExit && in01 t.elevatedEnter && in01 t.highExit &&
    in01 t.highEnter && in01 t.criticalExit && in01 t.criticalEnter && in01 t.exhaustedExit &&
    in01 t.exhaustedEnter

/-- The ascending chain of the threshold windows (core.cpp:105). -/
def Thresholds.ascending (t : Thresholds F) : Bool :=
  t.normalExit ≤ t.elevatedExit && t.elevatedExit ≤ t.elevatedEnter &&
    t.elevatedEnter ≤ t.highExit && t.highExit ≤ t.highEnter && t.highEnter ≤ t.criticalExit &&
    t.criticalExit ≤ t.criticalEnter && t.criticalEnter ≤ t.exhaustedExit &&
    t.exhaustedExit ≤ t.exhaustedEnter

/-- All nine weights are finite and non-negative (core.cpp:118). -/
def ScoreWeights.allOk (w : ScoreWeights F) : Bool :=
  weightOk w.utilization && weightOk w.freeDeficit && weightOk w.reserveDeficit &&
    weightOk w.growthRate && weightOk w.allocationFailure && weightOk w.fragmentation &&
    weightOk w.reclaimableDeficit && weightOk w.confidencePenalty && weightOk w.stalePenalty

/-- `validate_policy` (core.cpp:92): the first problem found, if any. -/
def validatePolicy (p : PressurePolicy F) : Option String :=
  if !p.thresholds.allIn01 then
    some "thresholds must all be finite and within [0,1]"
  else if !p.thresholds.ascending then
    some "thresholds are not in ascending order (descending severity or inverted band)"
  else if !p.weights.allOk then
    some "scoring weights must be finite and non-negative"
  else if p.maxQueuedEvents = 0 then
    some "max_queued_events must be positive"
  else if p.hysteresis.minDwellObservations = 0 then
    some "min_dwell_observations must be positive"
  else none

/-- `default_policy` (core.cpp:135). -/
def defaultPolicy : PressurePolicy F where
  version := 1
  name := "default"
  maxReliefBytes := 18446744073709551615
  responseRules :=
    [{ level := .high, actions := [.warn, .requestReclaim] },
     { level := .critical,
       actions := [.requestDemotion, .requestReclaim, .reduceAdmission, .throttle] },
     { level := .exhausted,
       actions := [.emergencyStopGrowth, .rejectNewWork, .requestDemotion, .requestReclaim] }]

/-- The default policy passes its own check (in exact arithmetic). -/
theorem validatePolicy_defaultPolicy :
    validatePolicy (defaultPolicy : PressurePolicy ℚ) = none := by
  decide +kernel

end MemoryPressure
