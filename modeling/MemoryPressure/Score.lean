import MemoryPressure.Policy

/-!
# Scoring (`score.h`, `core.cpp`)

The versioned weighted score of one domain: seven components, normalized and
weighted in the order the source sums them. The order matters to a result that holds for
every number type, since floating-point addition is not associative.

`scoreDomain` computes the components (utilization, the deficits of free bytes and of the
reserve, growth, allocation failures, and the penalties for confidence and for validity),
each cut off to the unit interval, and leaves the two sums of their weighted mean to
`weightedSums`. Both penalties are tables over an enumeration. The `governed` flag of the
source changes nothing, and stays an argument because callers pass it.
-/

namespace MemoryPressure

/-- `PressureScore` (score.h:15). -/
structure PressureScore (F : Type) [Double F] where
  scoreVersion : Nat := 1
  value : F := 0.0
  utilizationComponent : F := 0.0
  freeDeficitComponent : F := 0.0
  reserveDeficitComponent : F := 0.0
  growthComponent : F := 0.0
  allocationFailureComponent : F := 0.0
  confidencePenalty : F := 0.0
  stalePenalty : F := 0.0

variable {F : Type} [Double F]

/-- `confidence_penalty` (core.cpp:24). -/
def confidencePenalty : Confidence → F
  | .authoritative => 0.0
  | .high => 0.15
  | .medium => 0.40
  | .low => 0.65
  | .unknown => 1.0

/-- `validity_penalty` (core.cpp:35). -/
def validityPenalty : Validity → F
  | .valid => 0.0
  | .stale => 0.85
  | .partialData => 0.35
  | .failed => 1.0
  | .unavailable => 1.0

/-- `num` and `den` of the weighted mean (core.cpp:192). -/
def weightedSums (weights comps : List F) : F × F :=
  (weights.zip comps).foldl (fun acc wc => (acc.1 + wc.1 * wc.2, acc.2 + wc.1)) (0.0, 0.0)

/-- `score_domain` (core.cpp:161). The `governed` flag changes nothing: the
ungoverned branch assigns the free deficit the value it already has. -/
def scoreDomain (utilization : F) (governed : Bool) (freeFraction reserveDeficitFraction
    growthFactor : F) (allocationFailures : Int32) (confidence : Confidence)
    (validity : Validity) (w : ScoreWeights F) : PressureScore F :=
  let u := Double.clamp01 utilization
  let fd := Double.clamp01 (1.0 - freeFraction)
  let rd := Double.clamp01 reserveDeficitFraction
  let gr := Double.clamp01 growthFactor
  let af := Double.min 1.0 (Double.ofInt allocationFailures.toInt / 5.0)
  let cp := confidencePenalty confidence
  let sp := validityPenalty validity
  let fd := if !governed then Double.clamp01 (1.0 - freeFraction) else fd
  let sums := weightedSums
    [w.utilization, w.freeDeficit, w.reserveDeficit, w.growthRate, w.allocationFailure,
      w.confidencePenalty, w.stalePenalty]
    [u, fd, rd, gr, af, cp, sp]
  { value := if sums.2 > 0.0 then Double.clamp01 (sums.1 / sums.2) else 0.0
    utilizationComponent := u
    freeDeficitComponent := fd
    reserveDeficitComponent := rd
    growthComponent := gr
    allocationFailureComponent := af
    confidencePenalty := cp
    stalePenalty := sp }

end MemoryPressure
