import MemoryPressure.Exact
import MemoryPressure.Runtime

/-!
# The synthetic provider (`providers/synthetic.h`, `synthetic.cpp`)

A provider that plays a scenario: how much of each domain is committed is a fixed
function of the number of samples taken before, the tick.

- `primaryCurve`, `utilFor`: the curves, one for each scenario and group of domains, as
  the source has them, constants included.
- `SyntheticProvider.observe`: what is observed of a domain on a tick. Its committed bytes
  are the share the curve gives, truncated; the rest of the fields follow from these.
- `SyntheticProvider.sample`: one sample, and the provider after it. A scenario may also
  fail, or call itself stale, from some tick on.

The definitions are generic in the numbers: `CurveDouble` adds to `Double` the three
operations that only this file of the source uses. `SyntheticCurves.lean` reads the curves
in exact arithmetic, and `Bench.lean` polls the provider from a runtime.
-/

namespace MemoryPressure

/-- The operations on `double` that only the synthetic provider uses. -/
class CurveDouble (F : Type) extends Double F where
  /-- `std::abs`. -/
  abs : F → F
  /-- `std::fmod`. -/
  fmod : F → F → F
  /-- `static_cast<std::uint64_t>`; unspecified out of range. -/
  truncate : F → UInt64

/-- `SyntheticScenario` (synthetic.h:9). -/
inductive SyntheticScenario where
  | gradualGrowth | rapidSpike | sawtooth | slowRecovery | noRecovery | providerFailure
  | staleProvider | gpuOnly | hostOnly | simultaneous | persistentTier | pinnedExhaustion
  | multiGpu | oneRecovering | custom
  deriving DecidableEq, Repr

/-- `to_string(SyntheticScenario)` (synthetic.h:15). -/
def SyntheticScenario.toString : SyntheticScenario → String
  | .gradualGrowth => "gradual-growth"
  | .rapidSpike => "rapid-spike"
  | .sawtooth => "sawtooth"
  | .slowRecovery => "slow-recovery"
  | .noRecovery => "no-recovery"
  | .providerFailure => "provider-failure"
  | .staleProvider => "stale-provider"
  | .gpuOnly => "gpu-only"
  | .hostOnly => "host-only"
  | .simultaneous => "simultaneous"
  | .persistentTier => "persistent-tier"
  | .pinnedExhaustion => "pinned-exhaustion"
  | .multiGpu => "multi-gpu"
  | .oneRecovering => "one-recovering"
  | .custom => "custom"

/-- `SyntheticDomainSpec` (synthetic.h:36). -/
structure SyntheticDomainSpec (F : Type) [Double F] where
  id : PressureDomainId := {}
  type : DomainType := .unknown
  group : String := ""
  provider : String := ""
  nativeResourceId : String := ""
  totalCapacity : UInt64 := 0
  phase : F := 0.0
  base : F := 0.15
  present : Bool := true

/-- `SyntheticProvider` (synthetic.h:48). `step_ms_` is set and never read; `tick_` has
64 bits in the source and is a natural here, which no number of samples brings round. -/
structure SyntheticProvider (F : Type) [Double F] where
  domains : List (SyntheticDomainSpec F)
  scenario : SyntheticScenario
  failureAfterSteps : Nat := 4
  tick : Nat := 0

variable {F : Type} [CurveDouble F]

namespace Synthetic

open Double (clamp01)

/-- `is_hostlike` (synthetic.cpp:16). -/
def isHostlike (g : String) : Bool := g = "host" || g = "commit" || g = "pinned" || g = "shared"

/-- `primary_curve` (synthetic.cpp:21). -/
def primaryCurve (sc : SyntheticScenario) (phase : F) (tick : Nat) : F :=
  let p := CurveDouble.fmod (CurveDouble.abs phase) 1.0
  match sc with
  | .gradualGrowth =>
    let prog := Double.min 1.0 (Double.ofNat tick / 50.0)
    clamp01 (0.15 + 0.85 * prog * (1.0 - 0.3 * p))
  | .rapidSpike => if tick ≥ 6 then clamp01 (0.95 + 0.04 * p) else clamp01 (0.2 + 0.25 * p)
  | .sawtooth =>
    let period : F := 24.0
    let tt := CurveDouble.fmod (Double.ofNat tick + p * period) period
    let x := tt / period
    let lo : F := 0.25
    let hi : F := 0.98
    if x < 0.5 then lo + (hi - lo) * (2.0 * x) else hi - (hi - lo) * (2.0 * x - 1.0)
  | .slowRecovery =>
    if tick < 20 then clamp01 (0.15 + 0.82 * Double.min 1.0 (Double.ofNat tick / 20.0))
    else clamp01 (0.97 - 0.82 * Double.min 1.0 (Double.ofNat (tick - 20) / 100.0))
  | .noRecovery =>
    if tick ≥ 18 then 0.98
    else clamp01 (0.15 + 0.83 * Double.min 1.0 (Double.ofNat tick / 18.0))
  | _ => clamp01 (0.15 + 0.85 * Double.min 1.0 (Double.ofNat tick / 50.0) * (1.0 - 0.3 * p))

/-- `util_for` (synthetic.cpp:47). -/
def utilFor (d : SyntheticDomainSpec F) (sc : SyntheticScenario) (tick : Nat) : F :=
  let g := d.group
  match sc with
  | .gpuOnly => if g = "gpu" then primaryCurve .gradualGrowth d.phase tick else d.base
  | .hostOnly => if isHostlike g then primaryCurve .gradualGrowth d.phase tick else d.base
  | .simultaneous =>
    if g = "gpu" then primaryCurve .gradualGrowth d.phase tick
    else if isHostlike g then primaryCurve .gradualGrowth d.phase (tick + 10)
    else d.base
  | .persistentTier =>
    if g = "persistent" then primaryCurve .gradualGrowth d.phase tick else d.base
  | .pinnedExhaustion =>
    if g = "pinned" then
      clamp01 (0.05 + 0.95 * Double.min 1.0 (Double.ofNat tick / 30.0))
    else d.base
  | .multiGpu =>
    if g = "gpu" then
      let ramp := Double.min 1.0 (Double.ofNat tick / (40.0 + 15.0 * d.phase))
      clamp01 (d.base + (0.97 - d.base) * ramp)
    else d.base
  | .oneRecovering =>
    if g = "gpu0" then
      if tick ≥ 15 then 0.97
      else clamp01 (0.2 + 0.77 * Double.min 1.0 (Double.ofNat tick / 15.0))
    else if g = "gpu1" then
      if tick ≥ 20 then
        clamp01 (0.97 - 0.72 * Double.min 1.0 (Double.ofNat (tick - 20) / 60.0))
      else 0.97
    else d.base
  | sc =>
    if g ≠ "" ∧ (g = "gpu" ∨ isHostlike g) then
      if g = "gpu" then primaryCurve sc d.phase tick
      else if sc = .hostOnly ∨ sc = .simultaneous then primaryCurve sc d.phase tick
      else if isHostlike g ∧ sc ≠ .gpuOnly then primaryCurve sc d.phase tick
      else d.base
    else d.base

end Synthetic

namespace SyntheticProvider

/-- `SyntheticProvider::name` (synthetic.h:54). -/
def name : String := "synthetic"

/-- `o.committed` (synthetic.cpp:129). -/
def committedAt (sc : SyntheticScenario) (tick : Nat) (d : SyntheticDomainSpec F) : UInt64 :=
  CurveDouble.truncate (Double.ofUInt64 d.totalCapacity * Synthetic.utilFor d sc tick)

/-- What is observed of a domain (synthetic.cpp:118–138). -/
def observe (sc : SyntheticScenario) (tick : Nat) (stale : Bool) (observedAt : UInt64)
    (d : SyntheticDomainSpec F) : DomainObservation F :=
  let committed := committedAt sc tick d
  { id := d.id
    type := d.type
    provider := if d.provider = "" then "synthetic" else d.provider
    nativeResourceId := d.nativeResourceId
    totalCapacity := d.totalCapacity
    committed := committed
    resident := committed
    available := if committed < d.totalCapacity then d.totalCapacity - committed else 0
    confidence := .high
    provenance := .syntheticInput
    validity := if stale then .stale else .valid
    observedAtMs := observedAt
    detail := "synthetic:" ++ sc.toString }

/-- `SyntheticProvider::sample` (synthetic.cpp:97). -/
def sample (sp : SyntheticProvider F) (nowMs : UInt64) :
    ProviderSample F × SyntheticProvider F :=
  let tick := sp.tick
  let next := { sp with tick := tick + 1 }
  if sp.scenario = .providerFailure ∧ tick ≥ sp.failureAfterSteps then
    ({ status := .failed, error := "synthetic provider failure (scenario)",
       sampledAtMs := nowMs }, next)
  else
    let stale : Bool := sp.scenario = .staleProvider ∧ tick ≥ 3
    let observedAt := if stale then
      if nowMs > 10 * 60 * 1000 then nowMs - 10 * 60 * 1000 else nowMs
      else nowMs
    ({ status := if stale then .stale else .healthy
       observations := (sp.domains.filter SyntheticDomainSpec.present).map
         (observe sp.scenario tick stale observedAt)
       error := if stale then "synthetic provider stale (scenario)" else ""
       sampledAtMs := nowMs }, next)

/-- `SyntheticProvider::reset` (synthetic.h:58). -/
def reset (sp : SyntheticProvider F) : SyntheticProvider F := { sp with tick := 0 }

end SyntheticProvider

end MemoryPressure
