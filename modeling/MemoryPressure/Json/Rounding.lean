import MemoryPressure.Foundation.NearestEven
import MemoryPressure.Json.Printer
import MemoryPressure.Json.Record

/-!
# Integers of 64 bits as numbers

An unsigned integer is cast to `std::int64_t` and then rounded to the nearest
`double`, ties to even. `RoundsToEven` is that promise of IEEE arithmetic; from it
`asUInt64_ofUInt64_eq` is what the reader makes of each of them.

- Up to `2 ^ 53` it is read back.
- `2 ^ 53 + 1` is a tie: rounded down to `2 ^ 53`, it is read as that.
- What is larger is refused, from `2 ^ 63` on because it is negative after the cast.

The promise is stated by `roundInt` of `Foundation/NearestEven.lean`, a function on
integers, so that nothing of the format of a `double` but its 53 digits is assumed. That it
can be kept is shown by `Rounded`, exact numbers into which integers are converted as into
a `double`; the statements that rest on it are run there.
-/

namespace MemoryPressure

open NearestEven (roundInt)

/-- What `double` promises of the conversion of integers of 64 bits: it rounds to
nearest, ties to even. -/
class RoundsToEven (F : Type) [JsonDouble F] : Prop extends ExactIntegers F where
  ofInt_lt_iff : ∀ m n : Int, m.natAbs ≤ 2 ^ 63 → n.natAbs ≤ 2 ^ 63 →
    ((Double.ofInt m : F) < Double.ofInt n ↔ roundInt 53 m < roundInt 53 n)
  ofInt_eq : ∀ m n : Int, m.natAbs ≤ 2 ^ 63 → n.natAbs ≤ 2 ^ 63 →
    roundInt 53 m = roundInt 53 n → (Double.ofInt m : F) = Double.ofInt n

namespace Json

variable {S N : Type} [JsonDouble N] [RoundsToEven N]

/-- An integer that is not rounded into the accepted range is refused. -/
theorem asUInt64_ofInt_eq_none {n : Int} (hn : n.natAbs ≤ 2 ^ 63)
    (h : roundInt 53 n < 0 ∨ 2 ^ 53 < roundInt 53 n) :
    (number (Double.ofInt n : N) : Json S N).asUInt64 = none := by
  rw [asUInt64, asNumber]
  simp only [ExactIntegers.isFinite_ofInt n hn, ExactIntegers.floor_ofInt n hn]
  rw [if_neg (by simp), if_neg (by simp), if_pos]
  rcases h with hlow | hhigh
  · exact Or.inl ((RoundsToEven.ofInt_lt_iff _ _ hn (by decide)).mpr hlow)
  · exact Or.inr ((RoundsToEven.ofInt_lt_iff _ _ (by decide) hn).mpr hhigh)

/-- **What is read of a written unsigned integer.** -/
theorem asUInt64_ofUInt64_eq (n : UInt64) :
    (ofUInt64 n : Json S N).asUInt64 =
      if n.toNat ≤ 2 ^ 53 then some n
      else if n.toNat = 2 ^ 53 + 1 then some (UInt64.ofNat (2 ^ 53)) else none := by
  have hlt := n.toNat_lt
  split_ifs with hexact htie
  · exact asUInt64_ofUInt64 hexact
  · have heq : (Double.ofInt ((2 ^ 53 + 1 : Nat) : Int) : N)
        = Double.ofInt ((2 ^ 53 : Nat) : Int) :=
      RoundsToEven.ofInt_eq _ _ (by decide) (by decide) (by decide +kernel)
    rw [ofUInt64_of_lt (by omega), htie, heq]
    exact asUInt64_ofInt (Nat.le_refl _)
  · by_cases hhalf : n.toNat < 2 ^ 63
    · rw [ofUInt64_of_lt hhalf]
      refine asUInt64_ofInt_eq_none (by omega) (Or.inr ?_)
      -- the next number of 53 bits
      have hnext : roundInt 53 ((2 ^ 53 + 2 : Nat) : Int) = 2 ^ 53 + 2 := by decide +kernel
      have hmono : roundInt 53 ((2 ^ 53 + 2 : Nat) : Int) ≤ roundInt 53 (n.toNat : Int) :=
        NearestEven.roundInt_mono (by omega) (by omega)
      omega
    · rw [ofUInt64, ofInt64, toInt_toInt64, if_neg hhalf]
      exact asUInt64_ofInt_eq_none (by omega)
        (Or.inl (NearestEven.roundInt_neg_of_neg (by omega) (by omega)))

end Json

/-! ## Exact numbers with rounded integers -/

/-- Exact numbers, into which integers are converted as into a `double`. -/
def Rounded : Type := ℚ

namespace Rounded

instance : JsonDouble Rounded :=
  show JsonDouble ℚ from
    { (inferInstance : JsonDouble ℚ) with ofInt := fun n => ((roundInt 53 n : Int) : ℚ) }

theorem ofInt_eq (n : Int) : (Double.ofInt n : Rounded) = ((roundInt 53 n : Int) : ℚ) := rfl

theorem ofInt_of_natAbs_le {n : Int} (h : n.natAbs ≤ 2 ^ 53) :
    (Double.ofInt n : Rounded) = (Double.ofInt n : ℚ) := by
  rw [ofInt_eq, NearestEven.roundInt_of_natAbs_le (by omega) h]
  rfl

instance : RoundsToEven Rounded where
  isFinite_ofInt _ _ := rfl
  floor_ofInt n _ := by
    have h : ((((roundInt 53 n : Int) : ℚ).floor : ℤ) : ℚ) = (roundInt 53 n : Int) := by
      rw [Rat.floor_intCast]
    exact (bne_eq_false_iff_eq (α := ℚ)).mpr h
  not_ofInt_lt m n h :=
    not_lt.mpr (Int.cast_le.mpr (NearestEven.roundInt_mono (by omega) h) :
      ((roundInt 53 m : Int) : ℚ) ≤ (roundInt 53 n : Int))
  ofInt_le m n h := (Int.cast_le.mpr (NearestEven.roundInt_mono (by omega) h) :
      ((roundInt 53 m : Int) : ℚ) ≤ (roundInt 53 n : Int))
  toInt64_ofInt n h := by
    rw [ofInt_of_natAbs_le h]
    exact congrArg Int64.ofInt (Int.tdiv_one n)
  toUInt64_ofInt n h := by
    rw [ofInt_of_natAbs_le (n := n) h]
    exact ExactIntegers.toUInt64_ofInt (F := ℚ) n h
  ofInt_lt_iff m n _ _ :=
    (Int.cast_lt : ((roundInt 53 m : Int) : ℚ) < (roundInt 53 n : Int) ↔ _)
  ofInt_eq m n _ _ h := congrArg (fun k : Int => (k : ℚ)) h

end Rounded

end MemoryPressure
