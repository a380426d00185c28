import MemoryPressure.Foundation.SortedMap
import MemoryPressure.Arithmetic

/-!
# The JSON value (`json.h`, `json.cpp`)

`Json S N` is the source's tree over strings `S` and numbers `N`: the text layer
reads and writes strings of bytes, the record readers and writers use `String`.
An object is its `std::map`, a list of fields with ascending keys.

The number type is again a parameter. `JsonDouble` adds the operations the JSON
module uses on `double`; `ExactIntegers` is what IEEE arithmetic promises of the
integers a `double` holds exactly, and all the readers rely on.

- `asInt64`, `asUInt64`: the integer views, guards included; out of the guards they return
  nothing. The casts behind them are operations of the parameter.
- `find`, `ofFields`: a field by its key, and an object made by one assignment after the
  other, of which the last one to a key wins. `find_ofFields` is the law of the two.
- `Ordered`: the keys of every object in a tree ascend, as a `std::map` keeps them. It is
  asked of a tree that is printed.

The mutating operations of the source's value (`operator[]`, `push_back`) are not modelled
one by one: writers build an object or an array as a whole, in the order of the source.
-/

namespace MemoryPressure

/-- The operations on `double` that only the JSON module uses. -/
class JsonDouble (F : Type) extends Double F where
  /-- `std::floor`. -/
  floor : F → F
  /-- `static_cast<std::int64_t>`; unspecified out of range. -/
  toInt64 : F → Int64
  /-- `static_cast<std::uint64_t>`; unspecified out of range. -/
  toUInt64 : F → UInt64
  /-- `std::to_chars` with `chars_format::general`. -/
  toChars : F → List UInt8
  /-- `std::from_chars` with `chars_format::general`: the value and what was not
  consumed, or an error. -/
  fromChars : List UInt8 → Option (F × List UInt8)

/-- What `double` promises of integers: those of 64 bits are finite, integral and
in order, and those up to `2 ^ 53` convert back exactly. -/
class ExactIntegers (F : Type) [JsonDouble F] : Prop where
  isFinite_ofInt : ∀ n : Int, n.natAbs ≤ 2 ^ 63 → Double.isFinite (Double.ofInt n : F) = true
  floor_ofInt : ∀ n : Int, n.natAbs ≤ 2 ^ 63 →
    (JsonDouble.floor (Double.ofInt n : F) != Double.ofInt n) = false
  not_ofInt_lt : ∀ m n : Int, m ≤ n → ¬ (Double.ofInt n : F) < Double.ofInt m
  ofInt_le : ∀ m n : Int, m ≤ n → (Double.ofInt m : F) ≤ Double.ofInt n
  toInt64_ofInt : ∀ n : Int, n.natAbs ≤ 2 ^ 53 →
    JsonDouble.toInt64 (Double.ofInt n : F) = Int64.ofInt n
  toUInt64_ofInt : ∀ n : Nat, n ≤ 2 ^ 53 →
    JsonDouble.toUInt64 (Double.ofInt n : F) = UInt64.ofNat n

/-- `Json` (json.h:25). -/
inductive Json (S N : Type) where
  | null
  | bool (b : Bool)
  | number (n : N)
  | string (s : S)
  | array (items : List (Json S N))
  | object (fields : List (S × Json S N))

namespace Json

variable {S N : Type}

/-- `Json::is_object` (json.cpp:335). -/
def isObject : Json S N → Bool
  | object _ => true
  | _ => false

/-- `Json::is_array` (json.cpp:334). -/
def isArray : Json S N → Bool
  | array _ => true
  | _ => false

/-- `Json::is_number` (json.cpp:332). -/
def isNumber : Json S N → Bool
  | number _ => true
  | _ => false

/-- `Json::as_bool` (json.cpp:337). -/
def asBool : Json S N → Option Bool
  | bool b => some b
  | _ => none

/-- `Json::as_number` (json.cpp:338). -/
def asNumber : Json S N → Option N
  | number n => some n
  | _ => none

/-- `Json::as_string` (json.cpp:339). -/
def asString : Json S N → Option S
  | string s => some s
  | _ => none

/-- `Json::array_items` (json.cpp:358). -/
def arrayItems : Json S N → List (Json S N)
  | array items => items
  | _ => []

/-- `Json::object_items` (json.cpp:361). -/
def objectItems : Json S N → List (S × Json S N)
  | object fields => fields
  | _ => []

section

variable [JsonDouble N]

/-- `Json::as_int64` (json.cpp:341). -/
def asInt64 (j : Json S N) : Option Int64 :=
  match j.asNumber with
  | none => none
  | some v =>
    if Double.isFinite v = false then none
    else if JsonDouble.floor v != v then none
    else if v < Double.ofInt (-9223372036854775808) ∨ Double.ofInt 9223372036854775807 < v then none
    else some (JsonDouble.toInt64 v)

/-- `Json::as_uint64` (json.cpp:349). -/
def asUInt64 (j : Json S N) : Option UInt64 :=
  match j.asNumber with
  | none => none
  | some v =>
    if Double.isFinite v = false then none
    else if JsonDouble.floor v != v then none
    else if v < Double.ofInt 0 ∨ Double.ofInt 9007199254740992 < v then none
    else some (JsonDouble.toUInt64 v)

/-- `Json(std::int64_t)` (json.cpp:319). -/
def ofInt64 (n : Int64) : Json S N := number (Double.ofInt n.toInt)

/-- **An integer up to `2 ^ 53` is read back.** -/
theorem asInt64_ofInt [ExactIntegers N] {n : Int} (h : n.natAbs ≤ 2 ^ 53) :
    (number (Double.ofInt n : N) : Json S N).asInt64 = some (Int64.ofInt n) := by
  have hle : n.natAbs ≤ 2 ^ 63 := by omega
  rw [asInt64, asNumber]
  simp only [ExactIntegers.isFinite_ofInt n hle, ExactIntegers.floor_ofInt n hle,
    ExactIntegers.toInt64_ofInt n h]
  rw [if_neg (by simp), if_neg (by simp), if_neg]
  rintro (hlow | hhigh)
  · exact ExactIntegers.not_ofInt_lt _ _ (by omega) hlow
  · exact ExactIntegers.not_ofInt_lt _ _ (by omega) hhigh

theorem asUInt64_ofInt [ExactIntegers N] {n : Nat} (h : n ≤ 2 ^ 53) :
    (number (Double.ofInt n : N) : Json S N).asUInt64 = some (UInt64.ofNat n) := by
  have hle : (n : Int).natAbs ≤ 2 ^ 63 := by omega
  rw [asUInt64, asNumber]
  simp only [ExactIntegers.isFinite_ofInt (n : Int) hle, ExactIntegers.floor_ofInt (n : Int) hle,
    ExactIntegers.toUInt64_ofInt n h]
  rw [if_neg (by simp), if_neg (by simp), if_neg]
  rintro (hlow | hhigh)
  · exact ExactIntegers.not_ofInt_lt _ _ (by omega) hlow
  · exact ExactIntegers.not_ofInt_lt _ _ (by omega) hhigh

end

section

variable [LinearOrder S]

/-- `Json::find` (json.cpp:372). -/
def find (j : Json S N) (key : S) : Option (Json S N) :=
  match j with
  | object fields => SortedMap.lookup key fields
  | _ => none

/-- An object built by one `r[key] = value` after the other. -/
def ofFields (fields : List (S × Json S N)) : Json S N := object (SortedMap.ofEntries fields)

/-- A field written under a key of its own is found. -/
theorem find_ofFields {fields : List (S × Json S N)} (hnd : (fields.map Prod.fst).Nodup)
    {key : S} {v : Json S N} (h : (key, v) ∈ fields) : (ofFields fields).find key = some v :=
  SortedMap.lookup_ofEntries_of_nodup hnd h

/-- A field that was not written is not found. -/
theorem find_ofFields_of_notMem {fields : List (S × Json S N)} {key : S}
    (h : key ∉ fields.map Prod.fst) : (ofFields fields).find key = none :=
  SortedMap.lookup_ofEntries_of_notMem h

/-- The invariant of a tree: the keys of every object ascend. -/
inductive Ordered : Json S N → Prop
  | null : Ordered null
  | bool (b : Bool) : Ordered (bool b)
  | number (n : N) : Ordered (number n)
  | string (s : S) : Ordered (string s)
  | array {items : List (Json S N)} : (∀ v ∈ items, Ordered v) → Ordered (array items)
  | object {fields : List (S × Json S N)} : SortedMap.Ascending fields →
      (∀ kv ∈ fields, Ordered kv.2) → Ordered (object fields)

end

end Json

end MemoryPressure
