import MemoryPressure.SnapshotCodec

/-!
# Observations as documents (`serialize.cpp`)

Writer and reader of a provider's observation. Unlike the readers of budgets and
snapshots, this one refuses the document as soon as one of the unsigned numbers it
holds is not read (`readRequired`, `readOptional`), so what is read of a written
observation is all of it or nothing (`observationFromJson_observationToJson`).

- `DomainObservation.reread`: what a written observation is read as, field by field in the
  source's order, the optional numbers absent where they were not written.
- `asInt64_toInt64`: the failure count is signed and of 32 bits, and is read through 64.

The readers of a number are monadic in the source's sense: the first that refuses ends the
function. Here they are `Option`, and the writer's fields are a list in the order they are
put, so that a key is found by evaluating the record once (`Json/Record.lean`). A number
that the document does not hold is no refusal: it keeps the value a new observation has.
-/

namespace MemoryPressure

variable {F : Type} [JsonDouble F]

namespace Json

/-- `req` (serialize.cpp:285): a number that is not there stays 0, one that is no
unsigned integer is refused. -/
def readRequired (j : Json String F) (key : String) : Option UInt64 :=
  j.readOr key (some 0) asUInt64

/-- A number that may be absent (serialize.cpp:299): one that is there and is no unsigned
integer is refused. -/
def readOptional (j : Json String F) (key : String) : Option (Option UInt64) :=
  j.readOr key (some none) fun v => v.asUInt64.map some

variable {j : Json String F} {key : String}

theorem readRequired_of_find {n : UInt64} (h : j.find key = some (ofUInt64 n)) :
    j.readRequired key = stored F n :=
  readOr_of_find h _ _

theorem readOptional_of_find {n : Option UInt64} (h : j.find key = n.map ofUInt64) :
    j.readOptional key = n.mapM (stored F) := by
  rw [readOptional, readOr, h]
  cases n <;> rfl

end Json

/-- The fields `observation_to_json` writes. -/
def observationFields (o : DomainObservation F) : List (String × Option (Json String F)) :=
  [("id", some (.string o.id.toHex)),
   ("type", some (.string o.type.toString)),
   ("provider", some (.string o.provider)),
   ("native_resource_id", some (.string o.nativeResourceId)),
   ("total_capacity", some (.ofUInt64 o.totalCapacity)),
   ("committed", some (.ofUInt64 o.committed)),
   ("resident", some (.ofUInt64 o.resident)),
   ("reclaimable", o.reclaimable.map .ofUInt64),
   ("unavailable", some (.ofUInt64 o.unavailable)),
   ("available", some (.ofUInt64 o.available)),
   ("usable_capacity", o.usableCapacity.map .ofUInt64),
   ("reserved", o.reserved.map .ofUInt64),
   ("confidence", some (.string o.confidence.toString)),
   ("provenance", some (.string o.provenance.toString)),
   ("validity", some (.string o.validity.toString)),
   ("observed_at_ms", some (.ofUInt64 o.observedAtMs)),
   ("allocation_failures", some (.ofInt64 o.allocationFailures.toInt64)),
   ("growth_bytes_per_s", some (.number o.growthBytesPerS)),
   ("detail", some (.string o.detail))]

/-- `observation_to_json` (serialize.cpp:250). -/
def observationToJson (o : DomainObservation F) : Json String F := .record (observationFields o)

/-- `observation_from_json` (serialize.cpp:274). -/
def observationFromJson (j : Json String F) : Option (DomainObservation F) :=
  if j.isObject = false then none
  else
    match (j.find "id").bind Json.asString with
    | none => none
    | some text =>
      match PressureDomainId.fromHex text with
      | none => none
      | some id => do
        -- any of these refuses the document
        let totalCapacity ← j.readRequired "total_capacity"
        let committed ← j.readRequired "committed"
        let resident ← j.readRequired "resident"
        let unavailable ← j.readRequired "unavailable"
        let available ← j.readRequired "available"
        let observedAtMs ← j.readRequired "observed_at_ms"
        let reclaimable ← j.readOptional "reclaimable"
        let usableCapacity ← j.readOptional "usable_capacity"
        let reserved ← j.readOptional "reserved"
        return {
          id := id
          type := j.readEnum domainTypeFromString .unknown "type"
          provider := j.readText "provider"
          nativeResourceId := j.readText "native_resource_id"
          totalCapacity := totalCapacity
          committed := committed
          resident := resident
          reclaimable := reclaimable
          unavailable := unavailable
          available := available
          usableCapacity := usableCapacity
          reserved := reserved
          confidence := j.readEnum confidenceFromString .unknown "confidence"
          provenance := j.readEnum provenanceFromString .unknown "provenance"
          validity := j.readEnum validityFromString .valid "validity"
          observedAtMs := observedAtMs
          allocationFailures :=
            j.readOr "allocation_failures" 0 fun v => (v.asInt64.getD 0).toInt32
          growthBytesPerS := j.readNumber "growth_bytes_per_s"
          detail := j.readText "detail" }

theorem observationFields_keys (o : DomainObservation F) :
    ((observationFields o).map Prod.fst).Nodup :=
  show ["id", "type", "provider", "native_resource_id", "total_capacity", "committed", "resident",
    "reclaimable", "unavailable", "available", "usable_capacity", "reserved", "confidence",
    "provenance", "validity", "observed_at_ms", "allocation_failures", "growth_bytes_per_s",
    "detail"].Nodup by decide

theorem find_observationToJson (o : DomainObservation F) (i : Nat) (key : String)
    (v : Option (Json String F)) (h : (observationFields o)[i]? = some (key, v)) :
    (observationToJson o).find key = v :=
  Json.find_record_at (observationFields_keys o) i key v h

/-- What a written observation is read as, if its unsigned numbers are. -/
def DomainObservation.reread (o : DomainObservation F) : Option (DomainObservation F) := do
  let totalCapacity ← stored F o.totalCapacity
  let committed ← stored F o.committed
  let resident ← stored F o.resident
  let unavailable ← stored F o.unavailable
  let available ← stored F o.available
  let observedAtMs ← stored F o.observedAtMs
  let reclaimable ← o.reclaimable.mapM (stored F)
  let usableCapacity ← o.usableCapacity.mapM (stored F)
  let reserved ← o.reserved.mapM (stored F)
  return { o with
    totalCapacity := totalCapacity
    committed := committed
    resident := resident
    reclaimable := reclaimable
    unavailable := unavailable
    available := available
    usableCapacity := usableCapacity
    reserved := reserved
    observedAtMs := observedAtMs }

/-- A count of 32 bits comes back through 64. -/
theorem asInt64_toInt64 [ExactIntegers F] (n : Int32) :
    ((Json.ofInt64 n.toInt64 : Json String F).asInt64.getD 0).toInt32 = n := by
  have hle : n.toInt64.toInt.natAbs ≤ 2 ^ 53 := by
    have hlow := n.le_toInt
    have hhigh := n.toInt_lt
    rw [Int32.toInt_toInt64]
    omega
  rw [Json.asInt64_ofInt64 hle, Option.getD_some, Int32.toInt32_toInt64]

/-- **Reading a written observation.** -/
theorem observationFromJson_observationToJson [ExactIntegers F] (o : DomainObservation F) :
    observationFromJson (observationToJson o) = o.reread := by
  have h := find_observationToJson o
  rw [observationFromJson, if_neg (by rintro ⟨⟩), h 0 _ _ rfl]
  dsimp only [Option.bind_some, Json.asString]
  rw [fromHex_toHex]
  simp only [Json.readEnum_of_find (h 1 _ _ rfl) (domainTypeFromString_toString o.type),
    Json.readText_of_find (h 2 _ _ rfl),
    Json.readText_of_find (h 3 _ _ rfl),
    Json.readRequired_of_find (h 4 _ _ rfl),
    Json.readRequired_of_find (h 5 _ _ rfl),
    Json.readRequired_of_find (h 6 _ _ rfl),
    Json.readOptional_of_find (h 7 _ _ rfl),
    Json.readRequired_of_find (h 8 _ _ rfl),
    Json.readRequired_of_find (h 9 _ _ rfl),
    Json.readOptional_of_find (h 10 _ _ rfl),
    Json.readOptional_of_find (h 11 _ _ rfl),
    Json.readEnum_of_find (h 12 _ _ rfl) (confidenceFromString_toString o.confidence),
    Json.readEnum_of_find (h 13 _ _ rfl) (provenanceFromString_toString o.provenance),
    Json.readEnum_of_find (h 14 _ _ rfl) (validityFromString_toString o.validity),
    Json.readRequired_of_find (h 15 _ _ rfl),
    Json.readOr_of_find (h 16 _ _ rfl), asInt64_toInt64,
    Json.readNumber_of_find (h 17 _ _ rfl),
    Json.readText_of_find (h 18 _ _ rfl)]
  rfl

end MemoryPressure
