import MemoryPressure.Json.IntegerViews
import MemoryPressure.PolicyCodec
import MemoryPressure.TraceCodec

/-!
# Fields narrower than 64 bits (`serialize.cpp`)

The readers take a count of 32 bits through a 64-bit view, a default and a cast. So
a number that is no integer is read as the default, and an integer that the type
does not hold as what is left of it modulo `2 ^ 32`; neither refuses the document.

- `Kept`: a number of the document is the value in the result.
- `FitsIn`: a number of the document is an integer in the range of its field.
- `kept_iff_fitsIn`: in range the casts keep the number, and out of range nothing is
  kept, as the value is in range.
- `narrowing_iff`: for every accepted document, its numbers are kept exactly when they fit.

The last one covers the four readers of documents: policies, observations, snapshots and
traces. For each of them a structure says which fields are narrow and where the document
has them (`PolicyKept`, `ObservationKept`, `TraceKept`, `SnapshotKept`). A field that is
missing, or holds no number, is read as its default, and nothing is asked of it. What the
reader makes of a narrow field is read off its definition once for each reader, by way of
the two shapes of cast in the source (`kept_readUInt32`, `kept_readUInt64`).

The equivalence is for the document as a whole, field by field: no field can make up for
another. The numbers themselves are those of the parsed document; what parsing does to
their digits is a matter of `Json/Rounding.lean` and `Json/IntegerViews.lean`.
-/

namespace MemoryPressure

open DenotesRationals (value)

variable {F : Type} [JsonDouble F] [DenotesRationals F]

/-! ## Integers of a document -/

/-- A number of a document is an integer. -/
def IsInteger (d : F) (n : Int) : Prop := Double.isFinite d = true ∧ value d = n

/-- What a document has for a field is, if it is a number, the value of the field. -/
def Kept (found : Option (Json String F)) (n : Int) : Prop :=
  ∀ d, found.bind Json.asNumber = some d → IsInteger d n

/-- What a document has for a field is, if it is a number, an integer in range. -/
def FitsIn (low high : Int) (found : Option (Json String F)) : Prop :=
  ∀ d, found.bind Json.asNumber = some d → ∃ n, IsInteger d n ∧ low ≤ n ∧ n ≤ high

/-- A value in range that is the number wherever that is in range keeps it exactly then. -/
theorem kept_iff_fitsIn {low high n : Int} {found : Option (Json String F)}
    (hlow : low ≤ n) (hhigh : n ≤ high)
    (hread : ∀ d k, found.bind Json.asNumber = some d → IsInteger d k → low ≤ k → k ≤ high →
      n = k) : Kept found n ↔ FitsIn low high found := by
  constructor
  · intro h d hd
    exact ⟨n, h d hd, hlow, hhigh⟩
  · intro h d hd
    obtain ⟨k, hk, hklow, hkhigh⟩ := h d hd
    rw [hread d k hd hk hklow hkhigh]
    exact hk

/-- A count that fits `std::uint32_t`. -/
def FitsUInt32 (found : Option (Json String F)) : Prop := FitsIn 0 (2 ^ 32 - 1) found

/-- A count that fits `int`. -/
def FitsInt32 (found : Option (Json String F)) : Prop := FitsIn (-2 ^ 31) (2 ^ 31 - 1) found

/-- What is found under a key of an object that is itself found under one. -/
def findIn (j : Json String F) (outer inner : String) : Option (Json String F) :=
  (j.find outer).bind fun v => v.find inner

omit [JsonDouble F] [DenotesRationals F] in
/-- A number that is there was found. -/
theorem find_of_asNumber {found : Option (Json String F)} {d : F}
    (h : found.bind Json.asNumber = some d) : found = some (.number d) := by
  obtain ⟨v, rfl, hv⟩ := Option.bind_eq_some_iff.mp h
  cases v with
  | number n =>
    obtain rfl := Option.some.inj hv
    rfl
  | _ => cases hv

/-- A value that is read as a count through `as_int64` keeps the number exactly when it fits. -/
theorem kept_readUInt32 (j : Json String F) (dflt : UInt32) (key : String) :
    Kept (j.find key) (j.readUInt32 dflt key).toNat ↔ FitsUInt32 (j.find key) := by
  have hlt := (j.readUInt32 dflt key).toNat_lt
  refine kept_iff_fitsIn (by omega) (by omega) ?_
  intro d k hd hk hlow hhigh
  obtain ⟨n, rfl⟩ := Int.eq_ofNat_of_zero_le hlow
  rw [Json.readUInt32, Json.readOr_of_find (find_of_asNumber hd),
    asInt64_of_value hk.1 hk.2 (by omega) (by omega), Option.getD_some]
  show ((UInt64.ofNat n).toUInt32.toNat : Int) = n
  rw [UInt64.toUInt32_ofNat', UInt32.toNat_ofNat_of_lt' (show n < 2 ^ 32 by omega)]

/-- A value that is read as a count through `as_uint64` keeps the number exactly when it
fits, too. -/
theorem kept_readUInt64 (j : Json String F) (key : String) :
    Kept (j.find key) (j.readUInt64 key).toUInt32.toNat ↔ FitsUInt32 (j.find key) := by
  have hlt := (j.readUInt64 key).toUInt32.toNat_lt
  refine kept_iff_fitsIn (by omega) (by omega) ?_
  intro d k hd hk hlow hhigh
  obtain ⟨n, rfl⟩ := Int.eq_ofNat_of_zero_le hlow
  have hvalue : value d = (n : ℚ) := by
    rw [hk.2]
    exact Int.cast_natCast n
  rw [Json.readUInt64_of_find (find_of_asNumber hd), asUInt64_of_value hk.1 hvalue (by omega),
    Option.getD_some, UInt64.toUInt32_ofNat', UInt32.toNat_ofNat_of_lt' (show n < 2 ^ 32 by omega)]

/-! ## The documents -/

/-- The counts of a policy document are those of the policy. -/
structure PolicyKept (j : Json String F) (p : PressurePolicy F) : Prop where
  minDwell : Kept (findIn j "hysteresis" "min_dwell_observations")
    p.hysteresis.minDwellObservations.toNat
  maxDebounce : Kept (findIn j "hysteresis" "max_debounce_observations")
    p.hysteresis.maxDebounceObservations.toNat

structure PolicyFits (j : Json String F) : Prop where
  minDwell : FitsUInt32 (findIn j "hysteresis" "min_dwell_observations")
  maxDebounce : FitsUInt32 (findIn j "hysteresis" "max_debounce_observations")

/-- The count of an observation document is that of the observation. -/
def ObservationKept (j : Json String F) (o : DomainObservation F) : Prop :=
  Kept (j.find "allocation_failures") o.allocationFailures.toInt

def ObservationFits (j : Json String F) : Prop := FitsInt32 (j.find "allocation_failures")

/-- The counts of a trace document are those of the trace, observation by observation. -/
def TraceKept (j : Json String F) (t : PressureTrace F) : Prop :=
  List.Forall₂ (fun f fr => List.Forall₂ ObservationKept (observationItems f) fr.observations)
    (frameItems j) t.frames

def TraceFits (j : Json String F) : Prop :=
  ∀ f ∈ frameItems j, ∀ o ∈ observationItems f, ObservationFits o

/-- The counts of a snapshot document are those of the snapshot. -/
structure SnapshotKept (j : Json String F) (s : Snapshot F) : Prop where
  count : Kept (findIn j "events" "count") s.events.count.toNat
  dropped : Kept (findIn j "events" "dropped") s.events.dropped.toNat

structure SnapshotFits (j : Json String F) : Prop where
  count : FitsUInt32 (findIn j "events" "count")
  dropped : FitsUInt32 (findIn j "events" "dropped")

/-! ## What the readers make of them -/

omit [DenotesRationals F] in
theorem policyFromJson_hysteresis {j : Json String F} {p : PressurePolicy F}
    (h : policyFromJson j = some p) :
    p.hysteresis = j.readOr "hysteresis" {} hysteresisFromJson := by
  unfold policyFromJson at h
  cases hschema : j.find "schema" with
  | none => simp [hschema] at h
  | some schema =>
    simp only [hschema] at h
    split_ifs at h
    obtain ⟨version, -, h⟩ := Option.bind_eq_some_iff.mp h
    obtain ⟨th, -, h⟩ := Option.bind_eq_some_iff.mp h
    obtain ⟨thresholds, -, h⟩ := Option.bind_eq_some_iff.mp h
    split_ifs at h
    obtain rfl := Option.some.inj h
    rfl

omit [DenotesRationals F] in
theorem observationFromJson_allocationFailures {j : Json String F} {o : DomainObservation F}
    (h : observationFromJson j = some o) :
    o.allocationFailures =
      j.readOr "allocation_failures" 0 fun v => (v.asInt64.getD 0).toInt32 := by
  unfold observationFromJson at h
  split_ifs at h
  cases htext : (j.find "id").bind Json.asString with
  | none => simp [htext] at h
  | some text =>
    cases hid : PressureDomainId.fromHex text with
    | none => simp [htext, hid] at h
    | some id =>
      -- the numbers that may refuse the document, in the order they are read
      simp only [htext, hid, Option.bind_eq_bind, Option.bind_eq_some_iff] at h
      obtain ⟨totalCapacity, -, committed, -, resident, -, unavailable, -, available, -,
        observedAtMs, -, reclaimable, -, usableCapacity, -, reserved, -, h⟩ := h
      obtain rfl := Option.some.inj h
      rfl

omit [DenotesRationals F] in
theorem snapshotFromJson_events {j : Json String F} {s : Snapshot F}
    (h : snapshotFromJson j = some s) : s.events = j.readOr "events" {} eventsFromJson := by
  unfold snapshotFromJson at h
  cases hschema : j.find "schema" with
  | none => simp [hschema] at h
  | some schema =>
    simp only [hschema] at h
    split_ifs at h
    obtain ⟨domains, -, rfl⟩ := Option.map_eq_some_iff.mp h
    rfl

/-! ## What is kept -/

/-- A count inside a record of the document is kept if it is in every such record. -/
theorem kept_findIn_iff {α : Type} (j : Json String F) (outer : String) {inner : String} (dflt : α)
    (read : Json String F → α) (count : α → UInt32)
    (h : ∀ v, Kept (v.find inner) (count (read v)).toNat ↔ FitsUInt32 (v.find inner)) :
    Kept (findIn j outer inner) (count (j.readOr outer dflt read)).toNat ↔
      FitsUInt32 (findIn j outer inner) := by
  rw [findIn, Json.readOr]
  cases j.find outer with
  | none =>
    -- there is no number to keep
    constructor
    · intro _ d hd
      cases hd
    · intro _ d hd
      cases hd
  | some v => exact h v

theorem policyKept_iff {j : Json String F} {p : PressurePolicy F}
    (h : policyFromJson j = some p) : PolicyKept j p ↔ PolicyFits j := by
  have hdwell := kept_findIn_iff j "hysteresis" {} hysteresisFromJson
    HysteresisConfig.minDwellObservations fun hs => kept_readUInt32 hs 2 "min_dwell_observations"
  have hdebounce := kept_findIn_iff j "hysteresis" {} hysteresisFromJson
    HysteresisConfig.maxDebounceObservations fun hs =>
        kept_readUInt32 hs 4 "max_debounce_observations"
  rw [← policyFromJson_hysteresis h] at hdwell hdebounce
  constructor
  · rintro ⟨h₁, h₂⟩
    exact ⟨hdwell.mp h₁, hdebounce.mp h₂⟩
  · rintro ⟨h₁, h₂⟩
    exact ⟨hdwell.mpr h₁, hdebounce.mpr h₂⟩

theorem snapshotKept_iff {j : Json String F} {s : Snapshot F}
    (h : snapshotFromJson j = some s) : SnapshotKept j s ↔ SnapshotFits j := by
  have hcount := kept_findIn_iff j "events" {} eventsFromJson
    SnapshotEventSummary.count fun v => kept_readUInt64 v "count"
  have hdropped := kept_findIn_iff j "events" {} eventsFromJson
    SnapshotEventSummary.dropped fun v => kept_readUInt64 v "dropped"
  rw [← snapshotFromJson_events h] at hcount hdropped
  constructor
  · rintro ⟨h₁, h₂⟩
    exact ⟨hcount.mp h₁, hdropped.mp h₂⟩
  · rintro ⟨h₁, h₂⟩
    exact ⟨hcount.mpr h₁, hdropped.mpr h₂⟩

theorem observationKept_iff {j : Json String F} {o : DomainObservation F}
    (h : observationFromJson j = some o) : ObservationKept j o ↔ ObservationFits j := by
  have hread := observationFromJson_allocationFailures h
  have hlow := o.allocationFailures.le_toInt
  have hhigh := o.allocationFailures.toInt_lt
  refine kept_iff_fitsIn (by omega) (by omega) ?_
  intro d k hd hk hklow hkhigh
  rw [Json.readOr_of_find (find_of_asNumber hd),
    asInt64_of_value hk.1 hk.2 (by omega) (by omega), Option.getD_some] at hread
  rw [hread, Int64.toInt_toInt32, Int64.toInt_ofInt_of_le (by omega) (by omega)]
  exact Int.bmod_eq_of_le (by omega) (by omega)

/-- What holds of each item read is a matter of the items, if it is for each of them. -/
theorem forall₂_iff_forall_mem {α β : Type} {R P : α → β → Prop} {Q : α → Prop} {as : List α}
    {bs : List β} (h : List.Forall₂ R as bs) (hR : ∀ a b, R a b → (P a b ↔ Q a)) :
    List.Forall₂ P as bs ↔ ∀ a ∈ as, Q a := by
  induction h with
  | nil => simp
  | cons hab _ ih => rw [List.forall₂_cons, ih, hR _ _ hab, List.forall_mem_cons]

theorem traceKept_iff {j : Json String F} {t : PressureTrace F}
    (h : traceFromJson j = some t) : TraceKept j t ↔ TraceFits j :=
  forall₂_iff_forall_mem (traceFromJson_inv h) fun _ _ hframe =>
    forall₂_iff_forall_mem (frameFromJson_inv hframe) fun _ _ hobservation =>
      observationKept_iff hobservation

/-- **No silent narrowing**, as far as it goes: of every document that is accepted, the
numbers of the fields narrower than 64 bits are the values in the result exactly when each
of them is an integer that its field holds. The readers cast after the 64-bit view, and no
cast is checked. -/
theorem narrowing_iff :
    (∀ (j : Json String F) (p : PressurePolicy F), policyFromJson j = some p →
      (PolicyKept j p ↔ PolicyFits j)) ∧
    (∀ (j : Json String F) (o : DomainObservation F), observationFromJson j = some o →
      (ObservationKept j o ↔ ObservationFits j)) ∧
    (∀ (j : Json String F) (t : PressureTrace F), traceFromJson j = some t →
      (TraceKept j t ↔ TraceFits j)) ∧
    (∀ (j : Json String F) (s : Snapshot F), snapshotFromJson j = some s →
      (SnapshotKept j s ↔ SnapshotFits j)) :=
  ⟨fun _ _ => policyKept_iff, fun _ _ => observationKept_iff, fun _ _ => traceKept_iff,
    fun _ _ => snapshotKept_iff⟩

/-! ## A wrapped dwell -/

/-- The fields of a policy document with a dwell and no more than is required. -/
def dwellFields (dwell : Rounded) : List (String × Option (Json String Rounded)) :=
  [("schema", some (.ofInt64 kPolicySchemaVersion)),
   ("version", some (.ofUInt64 1)),
   ("thresholds",
    some (.record (thresholdsFields (defaultPolicy : PressurePolicy Rounded).thresholds))),
   ("hysteresis", some (.record [("min_dwell_observations", some (.number dwell))]))]

def dwellDocument (dwell : Rounded) : Json String Rounded := .record (dwellFields dwell)

theorem findIn_dwellDocument (dwell : Rounded) (key : String) :
    findIn (dwellDocument dwell) "hysteresis" key =
      (Json.record [("min_dwell_observations", some (.number dwell))]).find key := by
  have hkeys : ((dwellFields dwell).map Prod.fst).Nodup :=
    show ["schema", "version", "thresholds", "hysteresis"].Nodup by decide
  rw [findIn, dwellDocument, Json.find_record_at hkeys 3 _ _ rfl, Option.bind_some]

/-- A dwell of three observations is kept. -/
theorem narrowing_kept :
    ∃ p, policyFromJson (dwellDocument (Double.ofInt 3)) = some p ∧
      PolicyKept (dwellDocument (Double.ofInt 3)) p := by
  have hread : (policyFromJson (dwellDocument (Double.ofInt 3))).isSome = true := by
    decide +kernel
  obtain ⟨p, hp⟩ := Option.isSome_iff_exists.mp hread
  refine ⟨p, hp, (narrowing_iff.1 _ p hp).mpr ⟨?_, ?_⟩⟩
  · intro d hd
    rw [findIn_dwellDocument] at hd
    obtain rfl := Option.some.inj hd
    exact ⟨3, ⟨rfl, rfl⟩, by decide, by decide⟩
  · intro d hd
    rw [findIn_dwellDocument] at hd
    cases hd

/-- A dwell of `2 ^ 32 + 2` observations is accepted as one of two. -/
theorem narrowing_wraps :
    ∃ p, policyFromJson (dwellDocument (Double.ofInt 4294967298)) = some p ∧
      p.hysteresis.minDwellObservations = 2 ∧
      ¬ PolicyKept (dwellDocument (Double.ofInt 4294967298)) p := by
  have hread : (policyFromJson (dwellDocument (Double.ofInt 4294967298))).map
      (fun p => p.hysteresis.minDwellObservations) = some 2 := by decide +kernel
  obtain ⟨p, hp, hdwell⟩ := Option.map_eq_some_iff.mp hread
  refine ⟨p, hp, hdwell, ?_⟩
  intro hkept
  have h := hkept.minDwell (Double.ofInt 4294967298)
    (by rw [findIn_dwellDocument]; rfl)
  rw [hdwell] at h
  have hvalue : value (Double.ofInt 4294967298 : Rounded) = 4294967298 := by
    refine (DenotesRationals.value_ofInt 4294967298 (by decide)).trans ?_
    rw [NearestEven.roundInt_of_natAbs_le (by decide) (by decide)]
    norm_num
  have htwo : (4294967298 : ℚ) = 2 := hvalue.symm.trans h.2
  norm_num at htwo

end MemoryPressure
