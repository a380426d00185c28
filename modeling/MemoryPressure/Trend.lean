import MemoryPressure.Types
import MemoryPressure.Arithmetic

/-!
# Bounded trend estimation (`velocity.h`, `core.cpp`)

A short window of (time, committed) samples and the least-squares slope over
it, computed term by term as the source does.

`addSample` keeps the window: what is too old for the new sample goes first, then the
sample is appended, then the oldest ones go until the window is short enough. `estimate`
makes two passes over it, one for the means and one for the sums of squares and products
(`means`, `moments`), and guards both of its divisions: with fewer than two samples, or
with no time between them, the trend is flat and nothing is known.

What the window contains after any calls is said in `TrendWindow.lean`; what the estimate
says about the samples, in `TrendLaws.lean`, where the sums become covariations.
-/

namespace MemoryPressure

/-- `TrendEstimator::Sample` (velocity.h:39). -/
structure TrendSample where
  tMs : UInt64
  committed : UInt64
  deriving DecidableEq, Repr

/-- Timestamps do not go back. -/
def SamplesInOrder (samples : List TrendSample) : Prop :=
  samples.Pairwise fun a b => a.tMs ≤ b.tMs

/-- `TrendEstimator` (velocity.h:26); `samples` runs from the front (oldest) to
the back of the deque. -/
structure TrendEstimator where
  windowSamples : Nat := 16
  maxWindowAgeMs : UInt64 := 60000
  samples : List TrendSample := []
  deriving DecidableEq, Repr

/-- `TrendEstimate` (velocity.h:18). -/
structure TrendEstimate (F : Type) [Double F] where
  direction : TrendDirection := .unknown
  rate : F := 0.0
  confidence : F := 0.0
  samples : Nat := 0

namespace TrendEstimator

/-- `TrendEstimator::add_sample` (core.cpp:207): drop what is too old, append,
drop what overflows the window. -/
def addSample (e : TrendEstimator) (committed timestampMs : UInt64) : TrendEstimator :=
  let cutoff := if e.maxWindowAgeMs > timestampMs then 0 else timestampMs - e.maxWindowAgeMs
  let kept := e.samples.dropWhile (fun s => s.tMs < cutoff) ++ [⟨timestampMs, committed⟩]
  { e with samples := kept.drop (kept.length - e.windowSamples) }

/-- `TrendEstimator::reset` (core.cpp:214). -/
def reset (e : TrendEstimator) : TrendEstimator := { e with samples := [] }

variable {F : Type} [Double F]

/-- The sums of the second loop of `estimate` (core.cpp:226). -/
structure Moments (F : Type) [Double F] where
  cov : F := 0.0
  var : F := 0.0
  varc : F := 0.0

/-- The first loop of `estimate` (core.cpp:222): the mean sample, times relative
to the oldest one. -/
def means (t0 : F) (samples : List TrendSample) : F × F :=
  let sums := samples.foldl
    (fun (acc : F × F) s =>
      (acc.1 + (Double.ofUInt64 s.tMs - t0), acc.2 + Double.ofUInt64 s.committed))
    (0.0, 0.0)
  (sums.1 / Double.ofNat samples.length, sums.2 / Double.ofNat samples.length)

/-- The second loop of `estimate` (core.cpp:226). -/
def moments (t0 mt mc : F) (samples : List TrendSample) : Moments F :=
  samples.foldl
    (fun acc s =>
      let dt := (Double.ofUInt64 s.tMs - t0) - mt
      let dc := Double.ofUInt64 s.committed - mc
      { cov := acc.cov + dt * dc, var := acc.var + dt * dt, varc := acc.varc + dc * dc })
    {}

/-- `TrendEstimator::estimate` (core.cpp:216). -/
def estimate (e : TrendEstimator) : TrendEstimate F :=
  match e.samples with
  | [] | [_] => { samples := e.samples.length }
  | front :: _ =>
    let t0 : F := Double.ofUInt64 front.tMs
    let mean := means t0 e.samples
    let m := moments t0 mean.1 mean.2 e.samples
    if m.var ≤ 0.0 then { direction := .flat, confidence := 0.0, samples := e.samples.length }
    else
      let slope := m.cov / m.var
      let rate := slope * 1000.0
      let eps : F := 1.0
      let direction : TrendDirection :=
        if rate > eps then .rising else if rate < -eps then .falling else .flat
      let r2 := if m.varc > 0.0 then (m.cov * m.cov) / (m.var * m.varc) else 0.0
      let r2 := if r2 < 0.0 then 0.0 else r2
      let r2 := if r2 > 1.0 then 1.0 else r2
      let spanFrac := Double.ofNat e.samples.length / Double.ofNat (max e.windowSamples 1)
      { direction := direction
        rate := rate
        confidence := Double.clamp01 (Double.sqrt r2 * Double.min 1.0 spanFrac)
        samples := e.samples.length }

end TrendEstimator

end MemoryPressure
