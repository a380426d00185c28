import MemoryPressure.Foundation.Keyed
import MemoryPressure.Domain
import MemoryPressure.Hysteresis
import MemoryPressure.Trend
import MemoryPressure.Score

/-!
# From observation to domain state (`runtime.cpp:220`)

The body of `refresh`'s interpretation loop: one observation, the retained
state of its domain, the budget in force for it and the policy make a
`DomainState` and the next retained state. The loop over all observations is
`Keyed.feed`: an observation reads and writes the retained state of its own
domain only, and a domain without retained state starts from
`DomainRuntimeState(pol->hysteresis, 16)`. So everything that `Foundation/Keyed.lean` says of
feeds, and locality first of all, is said of the loop.

`interpretStep` is one turn. It is split into what is retained (`observe`: trend, debounce,
peak) and what is published (`domainStateFor`), which reads the retained state after the
observation and the level before it.

- `observe_level`: the debounce machine of a domain gets one raw level for each
  observation, classified against the level it is at (`rawLevel`).
- `observe_cfg`: it stays under the configuration it started with; only `set_policy` gives
  it another one.
- `DomainRuntimeState.Similar`: retained states that differ in the start of a closed window
  only publish alike, which carries the indifference of the debounce over to the loop.

What is published is here without response actions and explanation, which a second pass
fills in once all domains are known (`Runtime.lean`).
-/

namespace MemoryPressure

variable {F : Type} [Double F]

/-- `PressureRuntime::DomainRuntimeState` (runtime.h:105). -/
structure DomainRuntimeState (F : Type) [Double F] where
  type : DomainType := .unknown
  provider : String := ""
  nativeResourceId : String := ""
  budget : Budget := {}
  governed : Bool := false
  enteredLevelAtMs : UInt64 := 0
  peakLevelRank : Nat := 0
  hysteresis : HysteresisState F
  trend : TrendEstimator

/-- `DomainRuntimeState(cfg, win)` (runtime.h:115). -/
def DomainRuntimeState.new (cfg : HysteresisConfig F) (win : Nat) : DomainRuntimeState F where
  hysteresis := HysteresisState.new cfg
  trend := { windowSamples := win }

/-- The retained states, `domain_states_`. -/
abbrev DomainStates (F : Type) [Double F] :=
  Finmap (fun _ : PressureDomainId => DomainRuntimeState F)

/-- The budgets, `budgets_`. -/
abbrev Budgets := Finmap (fun _ : PressureDomainId => Budget)

/-- `utilization_for` (runtime.cpp:16). -/
def utilizationFor (committed usable : UInt64) : F :=
  if usable = 0 then 0.0 else Double.ofUInt64 committed / Double.ofUInt64 usable

/-- `governed` (runtime.cpp:237): a budget with a non-zero hard capacity is set. -/
def isGoverned (budget : Option Budget) : Bool := budget.any fun b => b.hardCapacity ≠ 0

/-- `bud` (runtime.cpp:238). -/
def effectiveBudget (budget : Option Budget) : Budget :=
  match budget with
  | some b => if b.hardCapacity ≠ 0 then b else defaultBudget
  | none => defaultBudget

/-- `usable` (runtime.cpp:242). -/
def usableFor (budget : Option Budget) (obs : DomainObservation F) : UInt64 :=
  if isGoverned budget then (effectiveBudget budget).usableCapacity
  else obs.usableCapacity.getD obs.totalCapacity

/-- The raw level of an observation for a domain now resolved at `prev`
(runtime.cpp:244 and 250). -/
def rawLevel (pol : PressurePolicy F) (budget : Option Budget) (obs : DomainObservation F)
    (prev : PressureLevel) : PressureLevel :=
  evaluateLevel (utilizationFor obs.committed (usableFor budget obs)) prev pol.thresholds

theorem rawLevel_ne_unknown (pol : PressurePolicy F) (budget : Option Budget)
    (obs : DomainObservation F) (prev : PressureLevel) : rawLevel pol budget obs prev ≠ .unknown :=
  evaluateLevel_ne_unknown _ _ _

/-- `growth_factor` (runtime.cpp:264). -/
def growthFactor (te : TrendEstimate F) : F :=
  match te.direction with
  | .rising => te.confidence
  | .falling => 0.2 * te.confidence
  | _ => 0.0

/-- The retained state after one observation (runtime.cpp:232–257). -/
def DomainRuntimeState.observe (pol : PressurePolicy F) (budget : Option Budget)
    (nowMs : UInt64) (st : DomainRuntimeState F) (obs : DomainObservation F) :
    DomainRuntimeState F :=
  let prev := st.hysteresis.current
  let hysteresis := st.hysteresis.update (rawLevel pol budget obs prev) nowMs
  let resolved := hysteresis.level
  { type := if st.type = .unknown then obs.type else st.type
    provider := if st.provider = "" then obs.provider else st.provider
    nativeResourceId :=
      if st.nativeResourceId = "" then obs.nativeResourceId else st.nativeResourceId
    budget := effectiveBudget budget
    governed := isGoverned budget
    enteredLevelAtMs := if resolved ≠ prev then nowMs else st.enteredLevelAtMs
    peakLevelRank := max st.peakLevelRank (severityFloor resolved)
    hysteresis := hysteresis
    trend := st.trend.addSample obs.committed nowMs }

/-- The `DomainState` of one observation (runtime.cpp:242–306): `prev` is the
level before it, `st` the retained state after it. -/
def domainStateFor (pol : PressurePolicy F) (budget : Option Budget) (nowMs : UInt64)
    (providerName : String) (prev : PressureLevel) (st : DomainRuntimeState F)
    (obs : DomainObservation F) : DomainState F :=
  let governed := isGoverned budget
  let bud := effectiveBudget budget
  let usable := usableFor budget obs
  let util := utilizationFor obs.committed usable
  let te : TrendEstimate F := st.trend.estimate
  let available := if usable > obs.committed then usable - obs.committed else 0
  let freeFraction : F :=
    if usable > 0 then Double.ofUInt64 available / Double.ofUInt64 usable else 0.0
  let reserveDeficit : F :=
    if usable > 0 ∧ obs.committed > usable then
      Double.clamp01 (Double.ofUInt64 (obs.committed - usable) / Double.ofUInt64 (max usable 1))
    else 0.0
  let sc := scoreDomain util governed freeFraction reserveDeficit (growthFactor te)
    obs.allocationFailures obs.confidence obs.validity pol.weights
  { id := obs.id
    type := obs.type
    provider := providerName
    nativeResourceId := obs.nativeResourceId
    budget := bud
    governed := governed
    totalCapacity := if governed then bud.hardCapacity else obs.totalCapacity
    usableCapacity := usable
    reservedBytes := if governed then bud.reserveBytes else obs.reserved.getD 0
    committed := obs.committed
    resident := obs.resident
    available := available
    reclaimable := obs.reclaimable.getD 0
    utilization := util
    level := st.hysteresis.level
    previousLevel := prev
    inHysteresisHold := st.hysteresis.inHold
    levelHoldObservations := st.hysteresis.pendingObservations.toNat
    score := sc.value
    utilizationComponent := sc.utilizationComponent
    freeDeficitComponent := sc.freeDeficitComponent
    reserveDeficitComponent := sc.reserveDeficitComponent
    growthComponent := sc.growthComponent
    allocationFailureComponent := sc.allocationFailureComponent
    stigma := sc.confidencePenalty + sc.stalePenalty
    trend := te.direction
    trendRate := te.rate
    trendConfidence := te.confidence
    trendWindowSamples := te.samples
    confidence := obs.confidence
    provenance := obs.provenance
    validity := obs.validity
    timestampMs := nowMs
    enteredLevelAtMs := st.enteredLevelAtMs
    peakLevel := st.peakLevelRank }

/-- An observation together with the name of the provider it was polled from. -/
abbrev Sighting (F : Type) [Double F] := String × DomainObservation F

/-- One turn of the interpretation loop (runtime.cpp:224). -/
def interpretStep (pol : PressurePolicy F) (budgets : Budgets) (nowMs : UInt64)
    (st : DomainRuntimeState F) (sight : Sighting F) : DomainRuntimeState F × DomainState F :=
  let budget := budgets.lookup sight.2.id
  let st' := st.observe pol budget nowMs sight.2
  (st', domainStateFor pol budget nowMs sight.1 st.hysteresis.current st' sight.2)

/-- The interpretation loop (runtime.cpp:224–311): all observations, in polling
order, through the retained states. -/
def interpretAll (pol : PressurePolicy F) (budgets : Budgets) (nowMs : UInt64)
    (states : DomainStates F) (sightings : List (Sighting F)) :
    DomainStates F × List (DomainState F) :=
  Keyed.feed (DomainRuntimeState.new pol.hysteresis 16) (fun sight => sight.2.id)
    (interpretStep pol budgets nowMs) states sightings

/-! ## What the loop body keeps -/

section

variable {pol : PressurePolicy F} {budget : Option Budget} {budgets : Budgets} {nowMs : UInt64}

@[simp] theorem new_hysteresis (cfg : HysteresisConfig F) (win : Nat) :
    (DomainRuntimeState.new cfg win).hysteresis = HysteresisState.new cfg := rfl

@[simp] theorem domainStateFor_id (name : String) (prev : PressureLevel)
    (st : DomainRuntimeState F) (obs : DomainObservation F) :
    (domainStateFor pol budget nowMs name prev st obs).id = obs.id := rfl

@[simp] theorem domainStateFor_level (name : String) (prev : PressureLevel)
    (st : DomainRuntimeState F) (obs : DomainObservation F) :
    (domainStateFor pol budget nowMs name prev st obs).level = st.hysteresis.level := rfl

@[simp] theorem domainStateFor_provider (name : String) (prev : PressureLevel)
    (st : DomainRuntimeState F) (obs : DomainObservation F) :
    (domainStateFor pol budget nowMs name prev st obs).provider = name := rfl

variable (pol budgets nowMs) in
theorem interpretStep_id (st : DomainRuntimeState F) (sight : Sighting F) :
    (interpretStep pol budgets nowMs st sight).2.id = sight.2.id := rfl

/-- An observed domain stays debounced under the configuration it started with. -/
theorem observe_cfg (st : DomainRuntimeState F) (obs : DomainObservation F) :
    (st.observe pol budget nowMs obs).hysteresis.cfg = st.hysteresis.cfg :=
  HysteresisState.update_cfg ..

/-- The resolved level after an observation, by the branches of the debounce. -/
theorem observe_level (st : DomainRuntimeState F) (obs : DomainObservation F) :
    (st.observe pol budget nowMs obs).hysteresis.level =
      (st.hysteresis.update (rawLevel pol budget obs st.hysteresis.level) nowMs).level := rfl

/-- Two retained states that publish alike: equal but for a closed debounce
window's start. -/
structure DomainRuntimeState.Similar (a b : DomainRuntimeState F) : Prop where
  hysteresis : a.hysteresis.Similar b.hysteresis
  rest : { a with hysteresis := b.hysteresis } = b

theorem DomainRuntimeState.Similar.refl (st : DomainRuntimeState F) :
    DomainRuntimeState.Similar st st := ⟨HysteresisState.Similar.refl _, rfl⟩

variable (pol budgets nowMs) in
/-- **Similar states interpret alike**: the same observation gives the same
`DomainState` and leaves the retained states similar. -/
theorem DomainRuntimeState.Similar.interpretStep {a b : DomainRuntimeState F}
    (h : DomainRuntimeState.Similar a b) (sight : Sighting F) :
    DomainRuntimeState.Similar (interpretStep pol budgets nowMs a sight).1
        (interpretStep pol budgets nowMs b sight).1 ∧
      (MemoryPressure.interpretStep pol budgets nowMs a sight).2
        = (MemoryPressure.interpretStep pol budgets nowMs b sight).2 := by
  obtain ⟨hh, hrest⟩ := h
  obtain ⟨at_, ap, an, ab, ag, ae, ak, ah, atr⟩ := a
  obtain ⟨bt, bp, bn, bb, bg, be, bk, bh, btr⟩ := b
  simp only [DomainRuntimeState.mk.injEq, true_and] at hrest
  obtain ⟨rfl, rfl, rfl, rfl, rfl, rfl, rfl, rfl⟩ := hrest
  dsimp only at hh
  have hu := hh.update
    (rawLevel_ne_unknown pol (budgets.lookup sight.2.id) sight.2 bh.level) nowMs
  simp only [MemoryPressure.interpretStep, observe, domainStateFor, HysteresisState.current,
    HysteresisState.inHold, HysteresisState.pendingObservations, hh.level]
  refine ⟨⟨hu, ?_⟩, ?_⟩
  · simp only [hu.level]
    rfl
  · simp only [hu.level, hu.pending, hu.pendingObs]
    rfl

end

end MemoryPressure
