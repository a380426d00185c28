import Mathlib.Data.Rat.Sqrt
import Mathlib.Algebra.Order.Ring.Rat

/-!
# C++ `double` as a parameter

The runtime computes utilizations, scores and trends in `double`. The model
takes the number type as a parameter `F` with the operations the source uses
(`Double F`) and assumes no laws for them: a result stated for every `F` holds
for IEEE arithmetic with any rounding and for exact arithmetic alike. Results
that need more name what they need, as a class or a hypothesis: orders that are
transitive (`IsTrans`), conversions that keep the order, arithmetic that rounds nothing
(`Exact.lean`).

`ℚ` is the exact instance the model is evaluated on. Its `sqrt` is exact on
squares of rationals, which is where the evaluations below use it. It is an instance to
compute with and not the meaning of `double`: a theorem about `ℚ` alone is about a witness
or a counterexample, whose numbers are such that `double` computes them exactly too.
-/

namespace MemoryPressure

/-- The operations on `double` the source uses. -/
class Double (F : Type) extends Add F, Sub F, Mul F, Div F, Neg F, LT F, LE F, BEq F,
    OfScientific F where
  /-- `static_cast<double>` of an integer. -/
  ofInt : Int → F
  /-- `std::sqrt`. -/
  sqrt : F → F
  /-- `std::isfinite`. -/
  isFinite : F → Bool
  /-- `std::to_string(double)`. -/
  toText : F → String
  decLt : DecidableLT F
  decLe : DecidableLE F

namespace Double

variable {F : Type} [Double F]

instance : DecidableLT F := decLt
instance : DecidableLE F := decLe

/-- `static_cast<double>` of an unsigned 64-bit integer. -/
def ofUInt64 (n : UInt64) : F := ofInt n.toNat

/-- `static_cast<double>` of a `std::size_t`. -/
def ofNat (n : Nat) : F := ofInt n

/-- `clamp01` (runtime.cpp:14, core.cpp:18). -/
def clamp01 (v : F) : F := if v < 0.0 then 0.0 else if v > 1.0 then 1.0 else v

/-- `std::min`. -/
def min (a b : F) : F := if b < a then b else a

end Double

/-- Decimal digits of `n`, at least `width` of them. -/
def padLeft (width : Nat) (s : String) : String :=
  "".pushn '0' (width - s.length) ++ s

/-- `std::to_string` of an exactly represented number: six decimals, ties to even. -/
def Rat.toText (q : ℚ) : String :=
  let scaled := q.num.natAbs * 1000000
  let whole := scaled / q.den
  let rest := 2 * (scaled % q.den)
  let rounded := if rest > q.den ∨ (rest = q.den ∧ whole % 2 = 1) then whole + 1 else whole
  (if q < 0 then "-" else "") ++ Nat.repr (rounded / 1000000) ++ "."
    ++ padLeft 6 (Nat.repr (rounded % 1000000))

instance : Double ℚ where
  ofInt n := n
  sqrt := Rat.sqrt
  isFinite _ := true
  toText := Rat.toText
  decLt := inferInstance
  decLe := inferInstance

end MemoryPressure
