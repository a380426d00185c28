import MemoryPressure.Json.Rounding

/-!
# Integer views of a number (`json.h`, `json.cpp`)

`as_int64` and the number branch of `serialize_to` cast a `double` to
`std::int64_t` behind the same guard. Its upper limit is the largest integer of 64
bits converted to `double`, which rounds it up to `2 ^ 63`; so the guard lets one
number through that the type does not hold.

- `DenotesRationals`: what IEEE arithmetic promises of the numbers that finite
  values denote.
- `int64Cast_eq_some_iff`: what gets past the guard, for every finite value.
- `integer_views_iff`: the casts stay in range and the views are exact for every
  finite value but `2 ^ 63`.

A finite `double` denotes a rational, and the model asks of the number type no more than
what the standard says of that: comparisons and `std::floor` are those of the rationals,
conversions from integers round to nearest with ties to even, and a cast is exact where
the number is in range. Out of range the cast has no defined result in C++; here it is
whatever the parameter makes of it, and the statement is that it is not asked
(`castInRange`), or else that what is returned is not the number (`asInt64_limit`).

Both guards are brought to one condition on the rational (`Guarded`), which differs from
being in range by exactly one number (`Guarded.inInt64_iff`). Negative limits make no such
difference, as the smallest integer of 64 bits is a `double` itself.
-/

namespace MemoryPressure

open JsonText
open NearestEven (roundInt)

/-- What `double` promises of the numbers its finite values denote: comparisons and
`std::floor` are those of the numbers, an integer of 64 bits is rounded to nearest,
ties to even, and an integer in range converts back exactly. Of a conversion out of
range nothing is promised. -/
class DenotesRationals (F : Type) [JsonDouble F] where
  /-- The number a finite value denotes. -/
  value : F → ℚ
  lt_iff : ∀ a b : F, Double.isFinite a = true → Double.isFinite b = true →
    (a < b ↔ value a < value b)
  le_iff : ∀ a b : F, Double.isFinite a = true → Double.isFinite b = true →
    (a ≤ b ↔ value a ≤ value b)
  floor_beq_iff : ∀ a : F, Double.isFinite a = true →
    ((JsonDouble.floor a == a) = true ↔ ∃ n : Int, value a = n)
  isFinite_ofInt : ∀ n : Int, n.natAbs ≤ 2 ^ 63 → Double.isFinite (Double.ofInt n : F) = true
  value_ofInt : ∀ n : Int, n.natAbs ≤ 2 ^ 63 → value (Double.ofInt n) = (roundInt 53 n : Int)
  toInt64_toInt : ∀ (a : F) (n : Int), Double.isFinite a = true → value a = n →
    -2 ^ 63 ≤ n → n < 2 ^ 63 → (JsonDouble.toInt64 a).toInt = n
  toUInt64_toNat : ∀ (a : F) (n : Nat), Double.isFinite a = true → value a = n →
    n < 2 ^ 64 → (JsonDouble.toUInt64 a).toNat = n

namespace DenotesRationals

instance : DenotesRationals Rounded where
  value q := show ℚ from q
  lt_iff _ _ _ _ := Iff.rfl
  le_iff _ _ _ _ := Iff.rfl
  floor_beq_iff a _ := by
    refine Iff.trans (beq_iff_eq (α := ℚ)) ?_
    constructor
    · intro h
      exact ⟨_, h.symm⟩
    · rintro ⟨n, hn⟩
      show ((Rat.floor a : Int) : ℚ) = a
      rw [show a = ((n : Int) : ℚ) from hn, Rat.floor_intCast]
  isFinite_ofInt _ _ := rfl
  value_ofInt _ _ := rfl
  toInt64_toInt a n _ hn hlow hhigh := by
    obtain rfl : a = ((n : Int) : ℚ) := hn
    show (Int64.ofInt (n.tdiv 1)).toInt = n
    rw [Int.tdiv_one, Int64.toInt_ofInt_of_le hlow hhigh]
  toUInt64_toNat a n _ hn hlt := by
    obtain rfl : a = ((n : Nat) : ℚ) := hn
    show (UInt64.ofNat ((n : Int).tdiv 1).toNat).toNat = n
    rw [Int.tdiv_one, Int.toNat_natCast, UInt64.toNat_ofNat_of_lt' hlt]

variable {F : Type} [JsonDouble F] [DenotesRationals F]

/-- The smallest integer of 64 bits is a `double`. -/
theorem value_int64Min : value (Double.ofInt (-9223372036854775808) : F) = -2 ^ 63 := by
  rw [value_ofInt _ (by decide),
    show roundInt 53 (-9223372036854775808) = -9223372036854775808 by decide +kernel]
  norm_num

/-- The largest integer of 64 bits is no `double`: its conversion is the next power of
two. -/
theorem value_int64Max : value (Double.ofInt 9223372036854775807 : F) = 2 ^ 63 := by
  rw [value_ofInt _ (by decide),
    show roundInt 53 9223372036854775807 = 9223372036854775808 by decide +kernel]
  norm_num

end DenotesRationals

open DenotesRationals (value)

/-- The numbers that `std::int64_t` holds lie between its limits. -/
def InInt64 (q : ℚ) : Prop := -2 ^ 63 ≤ q ∧ q ≤ 2 ^ 63 - 1

/-- The number a token denotes. -/
def JsonText.Decimal.value (t : Decimal) : ℚ := if t.neg then -t.magnitude else t.magnitude

theorem JsonText.intDecimal_value (n : Int) : (intDecimal n).value = n := by
  rw [Decimal.value, intDecimal_magnitude]
  show (if decide (n < 0) = true then -((n.natAbs : Nat) : ℚ) else (n.natAbs : Nat)) = n
  have habs : ((n.natAbs : Nat) : ℚ) = ((|n| : Int) : ℚ) := by
    rw [← Int.natCast_natAbs, Int.cast_natCast]
  rw [habs]
  split_ifs with hneg
  · rw [abs_of_neg (of_decide_eq_true hneg), Int.cast_neg, neg_neg]
  · rw [abs_of_nonneg (by simpa using hneg)]

/-! ## What is cast -/

variable {S N : Type} [JsonDouble N]

namespace Json

/-- What `as_int64` casts, if it comes to the cast (json.cpp:341). -/
def int64Cast (j : Json S N) : Option N :=
  match j.asNumber with
  | none => none
  | some v =>
    if Double.isFinite v = false then none
    else if JsonDouble.floor v != v then none
    else if v < Double.ofInt (-9223372036854775808) ∨ Double.ofInt 9223372036854775807 < v then none
    else some v

theorem asInt64_eq_map_int64Cast (j : Json S N) :
    j.asInt64 = j.int64Cast.map JsonDouble.toInt64 := by
  rw [asInt64, int64Cast]
  cases j.asNumber with
  | none => rfl
  | some v =>
    dsimp only
    split_ifs <;> rfl

end Json

namespace JsonText

/-- What `serialize_to` casts of a number, if it comes to the cast (json.cpp:256). -/
def serializeCast (d : N) : Option N :=
  if Double.isFinite d = false then none
  else if (JsonDouble.floor d == d) = true ∧ Double.ofInt (-9223372036854775808) ≤ d ∧
      d ≤ Double.ofInt 9223372036854775807 then
    some d
  else none

theorem serializeNumber_eq (d : N) :
    serializeNumber d =
      match serializeCast d with
      | some x => (intText (JsonDouble.toInt64 x).toInt, true)
      | none =>
        if Double.isFinite d = false then ([], false) else (JsonDouble.toChars d, true) := by
  rw [serializeNumber, serializeCast]
  split_ifs <;> rfl

end JsonText

/-! ## The guards -/

/-- What both guards ask of a number: it is integral and no less and no more than
the limits as `double`s. -/
def Guarded [DenotesRationals N] (d : N) : Prop :=
  ∃ n : Int, value d = n ∧ -2 ^ 63 ≤ n ∧ n ≤ 2 ^ 63

section

variable [DenotesRationals N] {d : N}

theorem guarded_iff (hfin : Double.isFinite d = true) :
    Guarded d ↔ (JsonDouble.floor d == d) = true ∧ -2 ^ 63 ≤ value d ∧ value d ≤ 2 ^ 63 := by
  rw [DenotesRationals.floor_beq_iff d hfin]
  constructor
  · rintro ⟨n, hn, hlow, hhigh⟩
    refine ⟨⟨n, hn⟩, ?_, ?_⟩
    · rw [hn]
      exact_mod_cast hlow
    · rw [hn]
      exact_mod_cast hhigh
  · rintro ⟨⟨n, hn⟩, hlow, hhigh⟩
    rw [hn] at hlow hhigh
    exact ⟨n, hn, by exact_mod_cast hlow, by exact_mod_cast hhigh⟩

/-- **What `as_int64` casts** of a finite number: the number, if it is guarded. -/
theorem int64Cast_eq_some_iff (hfin : Double.isFinite d = true) {x : N} :
    (Json.number d : Json S N).int64Cast = some x ↔ x = d ∧ Guarded d := by
  have hlow := DenotesRationals.lt_iff _ _ hfin (DenotesRationals.isFinite_ofInt
    (F := N) (-9223372036854775808) (by decide))
  have hhigh := DenotesRationals.lt_iff _ _ (DenotesRationals.isFinite_ofInt
    (F := N) 9223372036854775807 (by decide)) hfin
  rw [DenotesRationals.value_int64Min] at hlow
  rw [DenotesRationals.value_int64Max] at hhigh
  have hguard : Guarded d ↔ ¬ (JsonDouble.floor d != d) = true ∧
      ¬ (d < Double.ofInt (-9223372036854775808) ∨ Double.ofInt 9223372036854775807 < d) := by
    rw [guarded_iff hfin, hlow, hhigh, not_or, not_lt, not_lt, bne, Bool.not_eq_true',
      Bool.not_eq_false]
  rw [Json.int64Cast, Json.asNumber, hguard]
  dsimp only
  rw [if_neg (by simp [hfin])]
  split_ifs with hfloor hrange
  · simp [hfloor]
  · simp [hrange]
  · simp [hfloor, hrange, eq_comm]

/-- **What `serialize_to` casts** of a finite number: the number, if it is guarded. -/
theorem serializeCast_eq_some_iff (hfin : Double.isFinite d = true) {x : N} :
    serializeCast d = some x ↔ x = d ∧ Guarded d := by
  have hlow := DenotesRationals.le_iff _ _ (DenotesRationals.isFinite_ofInt
    (F := N) (-9223372036854775808) (by decide)) hfin
  have hhigh := DenotesRationals.le_iff _ _ hfin (DenotesRationals.isFinite_ofInt
    (F := N) 9223372036854775807 (by decide))
  rw [DenotesRationals.value_int64Min] at hlow
  rw [DenotesRationals.value_int64Max] at hhigh
  rw [serializeCast, if_neg (by simp [hfin]), guarded_iff hfin, ← hlow, ← hhigh]
  split_ifs with hguard
  · simp [hguard, eq_comm]
  · simp [hguard]

/-- Between the limits of the type, the cast is exact. -/
theorem toInt64_toInt_of_inInt64 (hfin : Double.isFinite d = true) (hguard : Guarded d)
    (hin : InInt64 (value d)) : ((JsonDouble.toInt64 d).toInt : ℚ) = value d := by
  obtain ⟨n, hn, hlow, -⟩ := hguard
  have hhigh : n ≤ 2 ^ 63 - 1 := by
    have h := hin.2
    rw [hn] at h
    exact_mod_cast h
  rw [DenotesRationals.toInt64_toInt d n hfin hn hlow (by omega), hn]

/-- **All that is guarded is in range, but for `2 ^ 63`.** -/
theorem Guarded.inInt64_iff (hguard : Guarded d) : InInt64 (value d) ↔ value d ≠ 2 ^ 63 := by
  obtain ⟨n, hn, hlow, hhigh⟩ := hguard
  rw [InInt64, hn]
  constructor
  · rintro ⟨-, hle⟩ heq
    rw [heq] at hle
    norm_num at hle
  · intro hne
    have hne' : n ≠ 2 ^ 63 := by
      rintro rfl
      exact hne (by norm_num)
    have hle : n ≤ 2 ^ 63 - 1 := by omega
    exact ⟨by exact_mod_cast hlow, by exact_mod_cast hle⟩

/-- An integer of 64 bits is viewed as it is. -/
theorem asInt64_of_value (hfin : Double.isFinite d = true) {n : Int} (hn : value d = n)
    (hlow : -2 ^ 63 ≤ n) (hhigh : n < 2 ^ 63) :
    (Json.number d : Json S N).asInt64 = some (Int64.ofInt n) := by
  have hcast := (int64Cast_eq_some_iff (S := S) hfin).mpr ⟨rfl, n, hn, hlow, hhigh.le⟩
  rw [Json.asInt64_eq_map_int64Cast, hcast, Option.map_some,
    ← DenotesRationals.toInt64_toInt d n hfin hn hlow hhigh, Int64.ofInt_toInt]

/-- An unsigned integer up to `2 ^ 53`, the limit of `as_uint64`, is viewed as it is. -/
theorem asUInt64_of_value (hfin : Double.isFinite d = true) {n : Nat} (hn : value d = n)
    (hle : n ≤ 2 ^ 53) : (Json.number d : Json S N).asUInt64 = some (UInt64.ofNat n) := by
  have hfloor : (JsonDouble.floor d == d) = true :=
    (DenotesRationals.floor_beq_iff d hfin).mpr ⟨n, by rw [hn, Int.cast_natCast]⟩
  have hlimit : ∀ m : Int, m.natAbs ≤ 2 ^ 53 → value (Double.ofInt m : N) = m := by
    intro m hm
    rw [DenotesRationals.value_ofInt m (by omega),
      NearestEven.roundInt_of_natAbs_le (by decide) hm]
  have hrange : ¬ (d < Double.ofInt 0 ∨ Double.ofInt 9007199254740992 < d) := by
    rw [DenotesRationals.lt_iff _ _ hfin (DenotesRationals.isFinite_ofInt _ (by decide)),
      DenotesRationals.lt_iff _ _ (DenotesRationals.isFinite_ofInt _ (by decide)) hfin,
      hlimit 0 (by decide), hlimit 9007199254740992 (by decide), hn, not_or, not_lt, not_lt]
    exact ⟨by exact_mod_cast Nat.zero_le n, by exact_mod_cast hle⟩
  rw [Json.asUInt64, Json.asNumber]
  dsimp only
  rw [if_neg (by simp [hfin]), if_neg (by simp [bne, hfloor]), if_neg hrange, Option.some_inj]
  have hback := DenotesRationals.toUInt64_toNat d n hfin hn (by omega)
  rw [← hback, UInt64.ofNat_toNat]

/-- The guards let `2 ^ 63` through. -/
theorem guarded_of_value_eq (heq : value d = 2 ^ 63) : Guarded d := by
  refine ⟨2 ^ 63, ?_, by norm_num, le_rfl⟩
  rw [heq]
  norm_num

/-- Of `2 ^ 63` `as_int64` returns another number, whatever the conversion makes of it. -/
theorem asInt64_limit (hfin : Double.isFinite d = true) (heq : value d = 2 ^ 63) :
    ∃ n, (Json.number d : Json S N).asInt64 = some n ∧ value d ≠ (n.toInt : ℚ) := by
  have hcast := (int64Cast_eq_some_iff (S := S) hfin).mpr ⟨rfl, guarded_of_value_eq heq⟩
  refine ⟨JsonDouble.toInt64 d, ?_, ?_⟩
  · rw [Json.asInt64_eq_map_int64Cast, hcast, Option.map_some]
  · intro hn
    have hlt := (JsonDouble.toInt64 d).toInt_lt
    rw [heq] at hn
    have hn' : (2 : Int) ^ 63 = (JsonDouble.toInt64 d).toInt := by exact_mod_cast hn
    omega

/-! ## Exact views -/

/-- The integer views of a number are exact and in range. -/
structure ExactViews (d : N) : Prop where
  /-- `as_int64` casts only what `std::int64_t` holds. -/
  castInRange : ∀ x, (Json.number d : Json Bytes N).int64Cast = some x → InInt64 (value x)
  /-- `serialize_to` casts only what `std::int64_t` holds. -/
  textCastInRange : ∀ x, serializeCast d = some x → InInt64 (value x)
  /-- `as_int64` returns the number or nothing. -/
  viewExact : ∀ n, (Json.number d : Json Bytes N).asInt64 = some n → value d = (n.toInt : ℚ)
  /-- The text of the integer branch denotes the number. -/
  textExact : serializeCast d ≠ none → ∃ t : Decimal, t.WellFormed ∧
    (serializeTo (Json.number d)).1 = t.text ∧ t.value = value d

/-- **Integer views**: of a finite number they are exact and in range, unless it is `2 ^
63`. At `2 ^ 63` the guard lets the cast happen out of range, and `as_int64` returns a
number that is not the one viewed. Infinities and NaN do not get to the casts. -/
theorem integer_views_iff (hfin : Double.isFinite d = true) :
    ExactViews d ↔ value d ≠ 2 ^ 63 := by
  constructor
  · intro h heq
    have hguard := guarded_of_value_eq heq
    have hin := h.castInRange d ((int64Cast_eq_some_iff hfin).mpr ⟨rfl, hguard⟩)
    exact hguard.inInt64_iff.mp hin heq
  · intro hne
    have hin : Guarded d → InInt64 (value d) := fun hguard => hguard.inInt64_iff.mpr hne
    refine ⟨?_, ?_, ?_, ?_⟩
    · intro x hx
      obtain ⟨rfl, hguard⟩ := (int64Cast_eq_some_iff hfin).mp hx
      exact hin hguard
    · intro x hx
      obtain ⟨rfl, hguard⟩ := (serializeCast_eq_some_iff hfin).mp hx
      exact hin hguard
    · intro n hn
      rw [Json.asInt64_eq_map_int64Cast] at hn
      obtain ⟨x, hx, rfl⟩ := Option.map_eq_some_iff.mp hn
      obtain ⟨rfl, hguard⟩ := (int64Cast_eq_some_iff hfin).mp hx
      exact (toInt64_toInt_of_inInt64 hfin hguard (hin hguard)).symm
    · intro hcast
      obtain ⟨x, hx⟩ := Option.ne_none_iff_exists'.mp hcast
      obtain ⟨rfl, hguard⟩ := (serializeCast_eq_some_iff hfin).mp hx
      refine ⟨intDecimal (JsonDouble.toInt64 x).toInt, intDecimal_wellFormed _, ?_, ?_⟩
      · rw [serializeTo, serializeNumber_eq, hx, intDecimal_text]
      · rw [intDecimal_value, toInt64_toInt_of_inInt64 hfin hguard (hin hguard)]

end

/-- The largest `double` below `2 ^ 63`. -/
theorem integer_views_largest : ExactViews (Double.ofInt 9223372036854774784 : Rounded) := by
  refine (integer_views_iff rfl).mpr ?_
  show ((roundInt 53 9223372036854774784 : Int) : ℚ) ≠ 2 ^ 63
  rw [show roundInt 53 9223372036854774784 = 9223372036854774784 by decide +kernel]
  norm_num

/-- The largest integer of 64 bits as a `double` gets past the guard of `as_int64`
and is not in range; what is returned is another number. -/
theorem integer_views_limit :
    (Json.number (Double.ofInt 9223372036854775807 : Rounded) : Json Bytes Rounded).int64Cast =
        some (Double.ofInt 9223372036854775807) ∧
      (∃ n, (Json.number (Double.ofInt 9223372036854775807 : Rounded) : Json Bytes Rounded).asInt64
          = some n ∧
        value (Double.ofInt 9223372036854775807 : Rounded) ≠ (n.toInt : ℚ)) ∧
      ¬ ExactViews (Double.ofInt 9223372036854775807 : Rounded) := by
  have hvalue : value (Double.ofInt 9223372036854775807 : Rounded) = 2 ^ 63 :=
    DenotesRationals.value_int64Max
  have hcast : (Json.number (Double.ofInt 9223372036854775807 : Rounded) :
      Json Bytes Rounded).int64Cast = some (Double.ofInt 9223372036854775807) :=
    (int64Cast_eq_some_iff rfl).mpr ⟨rfl, guarded_of_value_eq hvalue⟩
  obtain ⟨n, hn, hother⟩ := asInt64_limit (S := Bytes) (d := (_ : Rounded)) rfl hvalue
  refine ⟨hcast, ⟨n, hn, hother⟩, ?_⟩
  intro h
  exact hother (h.viewExact n hn)

end MemoryPressure
