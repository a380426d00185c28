import Mathlib.Data.String.Basic
import MemoryPressure.Json.Value

/-!
# Records as objects (`serialize.cpp`)

What the record writers and readers share.

- `record`: an object written field by field, some of the fields only if there is
  something to write. A field is found again as it was written (`find_record`).
- `readOr`: a field read if it is there, over the member's default otherwise.
- `ofUInt64`: an unsigned number through the cast to `std::int64_t` that every
  writer makes; up to `2 ^ 53` it is read back (`asUInt64_ofUInt64`).

The source repeats a handful of ways to read a field on almost every line. Each is one
definition here (`readText`, `readBool`, `readEnum`, `readUInt64`, `readNumber`), with its
default as the source has it, so that a reader is a structure value with one line a field
and a change of a field touches that line and its writer's. The lookup of a field in a
written record is decided by evaluation: keys are literals, and `find_record` asks only
whether the field was written.
-/

namespace MemoryPressure

namespace Json

section

variable {S N : Type} [LinearOrder S]

/-- `r[key] = value` for each field that is written, in order. -/
def record (fields : List (S × Option (Json S N))) : Json S N :=
  ofFields (fields.filterMap fun kv => kv.2.map fun v => (kv.1, v))

omit [LinearOrder S] in
theorem keys_written_sublist (fields : List (S × Option (Json S N))) :
    ((fields.filterMap fun kv => kv.2.map fun v => (kv.1, v)).map Prod.fst).Sublist
      (fields.map Prod.fst) := by
  induction fields with
  | nil => exact List.Sublist.refl _
  | cons kv fields ih =>
    obtain ⟨k, v⟩ := kv
    cases v with
    | none => exact ih.cons k
    | some v => exact ih.cons_cons k

omit [LinearOrder S] in
theorem mem_written {fields : List (S × Option (Json S N))} {key : S} {v : Json S N} :
    ((key, v) ∈ fields.filterMap fun kv => kv.2.map fun v => (kv.1, v)) ↔
      (key, some v) ∈ fields := by
  rw [List.mem_filterMap]
  constructor
  · rintro ⟨⟨k, x⟩, hmem, hx⟩
    obtain ⟨y, rfl, heq⟩ := Option.map_eq_some_iff.mp hx
    obtain ⟨rfl, rfl⟩ := Prod.mk.inj heq
    exact hmem
  · intro h
    exact ⟨_, h, rfl⟩

/-- A record holds the fields that were written. -/
theorem mem_objectItems_record {fields : List (S × Option (Json S N))}
    (hnd : (fields.map Prod.fst).Nodup) {key : S} {v : Json S N} :
    (key, v) ∈ (record fields).objectItems ↔ (key, some v) ∈ fields :=
  (SortedMap.mem_ofEntries (hnd.sublist (keys_written_sublist fields))).trans mem_written

/-- **A field is found as it was written**, or not at all if it was not. -/
theorem find_record {fields : List (S × Option (Json S N))} (hnd : (fields.map Prod.fst).Nodup)
    {key : S} {v : Option (Json S N)} (h : (key, v) ∈ fields) : (record fields).find key = v := by
  cases v with
  | some v => exact find_ofFields (hnd.sublist (keys_written_sublist fields)) (mem_written.mpr h)
  | none =>
    refine find_ofFields_of_notMem ?_
    intro hmem
    obtain ⟨⟨k, x⟩, hkv, rfl⟩ := List.mem_map.mp hmem
    -- the key occurs once, so the field is the one that was not written
    have heq := List.inj_on_of_nodup_map hnd (mem_written.mp hkv) h rfl
    cases congrArg Prod.snd heq

theorem find_record_at {fields : List (S × Option (Json S N))}
    (hnd : (fields.map Prod.fst).Nodup) (i : Nat) (key : S) (v : Option (Json S N))
    (h : fields[i]? = some (key, v)) : (record fields).find key = v :=
  find_record hnd (List.mem_of_getElem? h)

/-- `if (const Json* v = j.find(key)) out = read(*v);` over an `out` that was
`dflt`. -/
def readOr {α : Type} (j : Json S N) (key : S) (dflt : α) (read : Json S N → α) : α :=
  match j.find key with
  | none => dflt
  | some v => read v

theorem readOr_of_find {α : Type} {j v : Json S N} {key : S} (h : j.find key = some v) (dflt : α)
    (read : Json S N → α) : j.readOr key dflt read = read v := by
  rw [readOr, h]

end

section

variable {S N : Type} [JsonDouble N]

/-- `Json(static_cast<std::int64_t>(n))` of an unsigned number. -/
def ofUInt64 (n : UInt64) : Json S N := ofInt64 n.toInt64

/-- The cast keeps the lower half of the range and takes the upper half below zero. -/
theorem toInt_toInt64 (n : UInt64) :
    n.toInt64.toInt = if n.toNat < 2 ^ 63 then (n.toNat : Int) else n.toNat - 2 ^ 64 := by
  have h : n.toInt64.toInt = n.toBitVec.toInt := rfl
  rw [h, BitVec.toInt_eq_toNat_cond, UInt64.toNat_toBitVec]
  split_ifs <;> omega

theorem ofUInt64_of_lt {n : UInt64} (h : n.toNat < 2 ^ 63) :
    (ofUInt64 n : Json S N) = number (Double.ofInt n.toNat) := by
  rw [ofUInt64, ofInt64, toInt_toInt64, if_pos h]

/-- **An unsigned number up to `2 ^ 53` is read back.** -/
theorem asUInt64_ofUInt64 [ExactIntegers N] {n : UInt64} (h : n.toNat ≤ 2 ^ 53) :
    (ofUInt64 n : Json S N).asUInt64 = some n := by
  rw [ofUInt64_of_lt (by omega), asUInt64_ofInt h, UInt64.ofNat_toNat]

/-- An integer of 32 bits is read back. -/
theorem asInt64_ofInt64 [ExactIntegers N] {n : Int64} (h : n.toInt.natAbs ≤ 2 ^ 53) :
    (ofInt64 n : Json S N).asInt64 = some n := by
  rw [ofInt64, asInt64_ofInt h, Int64.ofInt_toInt]

end

/-! ## The readers' ways with a field -/

section

variable {N : Type}

/-- A text, `""` where there is none. -/
def readText (j : Json String N) (key : String) : String :=
  j.readOr key "" fun v => v.asString.getD ""

/-- A flag, off where there is none. -/
def readBool (j : Json String N) (key : String) : Bool :=
  j.readOr key false fun v => v.asBool.getD false

/-- An enumerator by its spelling, `dflt` where there is none. -/
def readEnum {α : Type} (fromString : String → Option α) (dflt : α) (j : Json String N)
    (key : String) : α :=
  j.readOr key dflt fun v => (fromString (v.asString.getD "")).getD dflt

/-- An unsigned number, 0 where there is none. -/
def readUInt64 [JsonDouble N] (j : Json String N) (key : String) : UInt64 :=
  j.readOr key 0 fun v => v.asUInt64.getD 0

/-- A number, 0 where there is none. -/
def readNumber [JsonDouble N] (j : Json String N) (key : String) : N :=
  j.readOr key 0.0 fun v => v.asNumber.getD 0.0

variable {j : Json String N} {key : String}

theorem readText_of_find {s : String} (h : j.find key = some (string s)) : j.readText key = s :=
  readOr_of_find h _ _

theorem readBool_of_find {b : Bool} (h : j.find key = some (bool b)) : j.readBool key = b :=
  readOr_of_find h _ _

theorem readEnum_of_find {α : Type} {fromString : String → Option α} {dflt a : α} {s : String}
    (h : j.find key = some (string s)) (hs : fromString s = some a) :
    readEnum fromString dflt j key = a := by
  rw [readEnum, readOr_of_find h]
  show (fromString s).getD dflt = a
  rw [hs, Option.getD_some]

theorem readUInt64_of_find [JsonDouble N] {v : Json String N} (h : j.find key = some v) :
    j.readUInt64 key = v.asUInt64.getD 0 :=
  readOr_of_find h _ _

theorem readNumber_of_find [JsonDouble N] {n : N} (h : j.find key = some (number n)) :
    j.readNumber key = n :=
  readOr_of_find h _ _

end

end Json

end MemoryPressure
