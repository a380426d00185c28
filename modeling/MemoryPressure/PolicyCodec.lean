import MemoryPressure.Policy
import MemoryPressure.SnapshotCodec

/-!
# Policies as documents (`serialize.cpp`)

Writer and reader of a policy, record by record in the source's order. The writer
writes every field. The reader has no line for the three penalties of `aggregate`
and none for `freshness`: these it leaves at their defaults
(`PressurePolicy.reread`, `policyFromJson_policyToJson`).

- `thresholdsFromJson`, `weightsFromJson` and their kind: one reader for each record, next
  to the fields its writer puts.
- `responseRuleFromJson`, `roleWeightEntry`: one turn of a loop. An unknown role or action
  is passed over; a rule whose level is unknown has the default one.
- `PressurePolicy.reread`: what a written policy is read as, given the version the document
  is read to have. It is a function of the policy alone, so that all later statements
  compare two policies and no document.

The readers differ in what they do with a number that is not there. A threshold must be
there and finite, or the document is refused. A count goes through a 64-bit view and a cast
(`readUInt32`). A weight that is no number becomes a negative one (`readWeight`), so that
the check at the end refuses it. That check (`validatePolicy`) is made of the policy as
read, and nothing of what it asks is known here; `PolicyRoundTrip.lean` brings it in.
-/

namespace MemoryPressure

variable {F : Type} [JsonDouble F]

/-! ## Fields of a policy document -/

namespace Json

/-- `write_u64` (serialize.cpp:24). -/
def writeU64 (j : Json String F) (key : String) : Option UInt64 :=
  (j.find key).bind asUInt64

/-- `write_double` (serialize.cpp:33). -/
def writeDouble (j : Json String F) (key : String) : Option F :=
  ((j.find key).bind asNumber).filter Double.isFinite

omit [JsonDouble F] in
/-- `write_string` (serialize.cpp:42). -/
def writeString (j : Json String F) (key : String) : Option String :=
  (j.find key).bind asString

/-- A count of 32 bits through `as_int64`, `dflt` where there is none. -/
def readUInt32 (dflt : UInt32) (j : Json String F) (key : String) : UInt32 :=
  j.readOr key dflt fun v => (v.asInt64.getD dflt.toUInt64.toInt64).toUInt64.toUInt32

/-- `rd` (serialize.cpp:157): a weight that is no number becomes a negative one. -/
def readWeight (dflt : F) (j : Json String F) (key : String) : F :=
  j.readOr key dflt fun v => v.asNumber.getD (-1.0)

variable {j : Json String F} {key : String}

theorem writeU64_of_find {n : UInt64} (h : j.find key = some (ofUInt64 n)) :
    j.writeU64 key = stored F n := by
  rw [writeU64, h]
  rfl

theorem writeDouble_of_find {n : F} (h : j.find key = some (number n))
    (hfinite : Double.isFinite n = true) : j.writeDouble key = some n := by
  rw [writeDouble, h]
  exact Option.filter_eq_some_iff.mpr ⟨rfl, hfinite⟩

theorem readUInt32_of_find [ExactIntegers F] {dflt n : UInt32}
    (h : j.find key = some (ofUInt64 n.toUInt64)) : j.readUInt32 dflt key = n := by
  have hlt : n.toUInt64.toNat < 2 ^ 32 := by
    rw [UInt32.toNat_toUInt64]
    exact n.toNat_lt
  have hle : n.toUInt64.toInt64.toInt.natAbs ≤ 2 ^ 53 := by
    rw [toInt_toInt64, if_pos (by omega)]
    omega
  rw [readUInt32, readOr_of_find h, ofUInt64, asInt64_ofInt64 hle, Option.getD_some,
    UInt64.toUInt64_toInt64, UInt32.toUInt32_toUInt64]

theorem readWeight_of_find {dflt n : F} (h : j.find key = some (number n)) :
    j.readWeight dflt key = n :=
  readOr_of_find h _ _

end Json

/-! ## Thresholds, hysteresis and weights -/

/-- The fields of `thresholds` (serialize.cpp:60). -/
def thresholdsFields (t : Thresholds F) : List (String × Option (Json String F)) :=
  [("normal_exit", some (.number t.normalExit)),
   ("elevated_enter", some (.number t.elevatedEnter)),
   ("elevated_exit", some (.number t.elevatedExit)),
   ("high_enter", some (.number t.highEnter)),
   ("high_exit", some (.number t.highExit)),
   ("critical_enter", some (.number t.criticalEnter)),
   ("critical_exit", some (.number t.criticalExit)),
   ("exhausted_enter", some (.number t.exhaustedEnter)),
   ("exhausted_exit", some (.number t.exhaustedExit))]

/-- Reading `thresholds` back (serialize.cpp:135): each must be there and finite. -/
def thresholdsFromJson (th : Json String F) : Option (Thresholds F) := do
  let normalExit ← th.writeDouble "normal_exit"
  let elevatedEnter ← th.writeDouble "elevated_enter"
  let elevatedExit ← th.writeDouble "elevated_exit"
  let highEnter ← th.writeDouble "high_enter"
  let highExit ← th.writeDouble "high_exit"
  let criticalEnter ← th.writeDouble "critical_enter"
  let criticalExit ← th.writeDouble "critical_exit"
  let exhaustedEnter ← th.writeDouble "exhausted_enter"
  let exhaustedExit ← th.writeDouble "exhausted_exit"
  return {
    normalExit := normalExit
    elevatedEnter := elevatedEnter
    elevatedExit := elevatedExit
    highEnter := highEnter
    highExit := highExit
    criticalEnter := criticalEnter
    criticalExit := criticalExit
    exhaustedEnter := exhaustedEnter
    exhaustedExit := exhaustedExit }

/-- The fields of `hysteresis` (serialize.cpp:72). -/
def hysteresisFields (h : HysteresisConfig F) : List (String × Option (Json String F)) :=
  [("min_dwell_observations", some (.ofUInt64 h.minDwellObservations.toUInt64)),
   ("min_dwell_duration_ms", some (.number h.minDwellDurationMs)),
   ("escalation_delay_ms", some (.number h.escalationDelayMs)),
   ("recovery_delay_ms", some (.number h.recoveryDelayMs)),
   ("immediate_emergency_escalation", some (.bool h.immediateEmergencyEscalation)),
   ("max_debounce_observations", some (.ofUInt64 h.maxDebounceObservations.toUInt64))]

/-- Reading `hysteresis` back (serialize.cpp:147): what is missing keeps its default. -/
def hysteresisFromJson (hs : Json String F) : HysteresisConfig F where
  minDwellObservations := hs.readUInt32 2 "min_dwell_observations"
  minDwellDurationMs := hs.readNumber "min_dwell_duration_ms"
  escalationDelayMs := hs.readNumber "escalation_delay_ms"
  recoveryDelayMs := hs.readNumber "recovery_delay_ms"
  immediateEmergencyEscalation :=
    hs.readOr "immediate_emergency_escalation" true fun v => v.asBool.getD true
  maxDebounceObservations := hs.readUInt32 4 "max_debounce_observations"

/-- The fields of `weights` (serialize.cpp:81). -/
def weightsFields (w : ScoreWeights F) : List (String × Option (Json String F)) :=
  [("utilization", some (.number w.utilization)),
   ("free_deficit", some (.number w.freeDeficit)),
   ("reserve_deficit", some (.number w.reserveDeficit)),
   ("growth_rate", some (.number w.growthRate)),
   ("allocation_failure", some (.number w.allocationFailure)),
   ("fragmentation", some (.number w.fragmentation)),
   ("reclaimable_deficit", some (.number w.reclaimableDeficit)),
   ("confidence_penalty", some (.number w.confidencePenalty)),
   ("stale_penalty", some (.number w.stalePenalty))]

/-- Reading `weights` back (serialize.cpp:156): what is missing keeps its default. -/
def weightsFromJson (w : Json String F) : ScoreWeights F where
  utilization := w.readWeight 1.0 "utilization"
  freeDeficit := w.readWeight 1.0 "free_deficit"
  reserveDeficit := w.readWeight 1.0 "reserve_deficit"
  growthRate := w.readWeight 0.5 "growth_rate"
  allocationFailure := w.readWeight 2.0 "allocation_failure"
  fragmentation := w.readWeight 0.25 "fragmentation"
  reclaimableDeficit := w.readWeight 0.5 "reclaimable_deficit"
  confidencePenalty := w.readWeight 0.5 "confidence_penalty"
  stalePenalty := w.readWeight 0.75 "stale_penalty"

theorem thresholdsFromJson_record {t : Thresholds F} (hok : t.allIn01 = true) :
    thresholdsFromJson (.record (thresholdsFields t)) = some t := by
  have hkeys : ((thresholdsFields t).map Prod.fst).Nodup :=
    show ["normal_exit", "elevated_enter", "elevated_exit", "high_enter", "high_exit",
      "critical_enter", "critical_exit", "exhausted_enter", "exhausted_exit"].Nodup by decide
  have h := Json.find_record_at hkeys
  simp only [Thresholds.allIn01, in01, Bool.and_eq_true] at hok
  obtain ⟨⟨⟨⟨⟨⟨⟨⟨hne, hle⟩, hln⟩, hhe⟩, hhn⟩, hce⟩, hcn⟩, hxe⟩, hxn⟩ := hok
  simp only [thresholdsFromJson, Json.writeDouble_of_find (h 0 _ _ rfl) hne.2,
    Json.writeDouble_of_find (h 1 _ _ rfl) hln.2, Json.writeDouble_of_find (h 2 _ _ rfl) hle.2,
    Json.writeDouble_of_find (h 3 _ _ rfl) hhn.2, Json.writeDouble_of_find (h 4 _ _ rfl) hhe.2,
    Json.writeDouble_of_find (h 5 _ _ rfl) hcn.2, Json.writeDouble_of_find (h 6 _ _ rfl) hce.2,
    Json.writeDouble_of_find (h 7 _ _ rfl) hxn.2, Json.writeDouble_of_find (h 8 _ _ rfl) hxe.2]
  rfl

theorem hysteresisFromJson_record [ExactIntegers F] (hs : HysteresisConfig F) :
    hysteresisFromJson (.record (hysteresisFields hs)) = hs := by
  have hkeys : ((hysteresisFields hs).map Prod.fst).Nodup :=
    show ["min_dwell_observations", "min_dwell_duration_ms", "escalation_delay_ms",
      "recovery_delay_ms", "immediate_emergency_escalation",
      "max_debounce_observations"].Nodup by decide
  have h := Json.find_record_at hkeys
  rw [hysteresisFromJson, Json.readUInt32_of_find (h 0 _ _ rfl),
    Json.readNumber_of_find (h 1 _ _ rfl), Json.readNumber_of_find (h 2 _ _ rfl),
    Json.readNumber_of_find (h 3 _ _ rfl), Json.readOr_of_find (h 4 _ _ rfl),
    Json.readUInt32_of_find (h 5 _ _ rfl)]
  rfl

theorem weightsFromJson_record (w : ScoreWeights F) :
    weightsFromJson (.record (weightsFields w)) = w := by
  have hkeys : ((weightsFields w).map Prod.fst).Nodup :=
    show ["utilization", "free_deficit", "reserve_deficit", "growth_rate", "allocation_failure",
      "fragmentation", "reclaimable_deficit", "confidence_penalty", "stale_penalty"].Nodup by decide
  have h := Json.find_record_at hkeys
  rw [weightsFromJson, Json.readWeight_of_find (h 0 _ _ rfl),
    Json.readWeight_of_find (h 1 _ _ rfl), Json.readWeight_of_find (h 2 _ _ rfl),
    Json.readWeight_of_find (h 3 _ _ rfl), Json.readWeight_of_find (h 4 _ _ rfl),
    Json.readWeight_of_find (h 5 _ _ rfl), Json.readWeight_of_find (h 6 _ _ rfl),
    Json.readWeight_of_find (h 7 _ _ rfl), Json.readWeight_of_find (h 8 _ _ rfl)]

/-! ## Aggregation, freshness and response rules -/

/-- The order `std::map<TierRole, double>` iterates in. -/
def tierRoles : List TierRole := [.root, .accelerator, .staging, .buffer, .persistent, .custom]

/-- The fields of `role_weight` (serialize.cpp:95). -/
def roleWeightFields (weights : Finmap fun _ : TierRole => F) :
    List (String × Option (Json String F)) :=
  tierRoles.map fun role => (role.toString, (weights.lookup role).map .number)

/-- One entry of `role_weight`, if it is one (serialize.cpp:172). -/
def roleWeightEntry (kv : String × Json String F) : Option (TierRole × F) :=
  match tierRoleFromString kv.1, kv.2.asNumber with
  | some role, some n => some (role, n)
  | _, _ => none

/-- Reading `role_weight` back (serialize.cpp:171): what is no object has no items. -/
def roleWeightFromJson (v : Json String F) : Finmap fun _ : TierRole => F :=
  SortedMap.readEntries roleWeightEntry v.objectItems ∅

/-- The fields of `aggregate` (serialize.cpp:93). -/
def aggregateFields (a : AggregateConfig F) : List (String × Option (Json String F)) :=
  [("consider_hierarchy", some (.bool a.considerHierarchy)),
   ("role_weight", some (.record (roleWeightFields a.roleWeight))),
   ("bottleneck_penalty", some (.number a.bottleneckPenalty)),
   ("reserve_exhaustion_penalty", some (.number a.reserveExhaustionPenalty)),
   ("response_feasibility_penalty", some (.number a.responseFeasibilityPenalty))]

/-- Reading `aggregate` back (serialize.cpp:169): its penalties are not read. -/
def aggregateFromJson (agg : Json String F) : AggregateConfig F where
  considerHierarchy := agg.readOr "consider_hierarchy" true fun v => v.asBool.getD true
  roleWeight := agg.readOr "role_weight" ∅ roleWeightFromJson

/-- The fields of `freshness` (serialize.cpp:103). -/
def freshnessFields (f : FreshnessConfig) : List (String × Option (Json String F)) :=
  [("default_max_age_us", some (.ofUInt64 f.defaultMaxAgeUs)),
   ("per_provider_max_age_us",
    some (.ofFields ((SortedMap.entriesOf f.perProviderMaxAgeUs).map fun kv =>
      (kv.1, .ofUInt64 kv.2))))]

/-- The fields of one response rule (serialize.cpp:112). -/
def responseRuleFields (rule : ResponseRule) : List (String × Option (Json String F)) :=
  [("level", some (.string rule.level.toString)), ("actions", some (actionsToJson rule.actions))]

/-- One turn of the `response_rules` loop (serialize.cpp:180). -/
def responseRuleFromJson (rr : Json String F) : ResponseRule where
  level := rr.readEnum pressureLevelFromString .high "level"
  actions := rr.readOr "actions" [] actionsFromJson

omit [JsonDouble F] in
/-- A weight is read back under its role, and no other is. -/
theorem roleWeightEntry_eq_some_iff {kv : String × Json String F} {role : TierRole} {n : F} :
    roleWeightEntry kv = some (role, n) ↔
      tierRoleFromString kv.1 = some role ∧ kv.2.asNumber = some n := by
  rw [roleWeightEntry]
  split
  · next role' n' hrole hn => simp [hrole, hn]
  · next hnone =>
    constructor
    · exact nofun
    · rintro ⟨hrole, hn⟩
      exact absurd hn (hnone role n hrole)

omit [JsonDouble F] in
theorem roleWeightFromJson_record (weights : Finmap fun _ : TierRole => F) :
    roleWeightFromJson (.record (roleWeightFields weights)) = weights := by
  have hkeys : ((roleWeightFields weights).map Prod.fst).Nodup :=
    show ["ROOT", "ACCELERATOR", "STAGING", "BUFFER", "PERSISTENT", "CUSTOM"].Nodup by decide
  -- an entry is read under a role exactly when the role has that weight
  have hentry : ∀ role n, (∃ kv ∈ (Json.record (roleWeightFields weights)).objectItems,
      roleWeightEntry kv = some (role, n)) ↔ weights.lookup role = some n := by
    intro role n
    constructor
    · rintro ⟨⟨key, v⟩, hkv, hread⟩
      obtain ⟨hrole, hn⟩ := roleWeightEntry_eq_some_iff.mp hread
      obtain ⟨role', -, heq⟩ := List.mem_map.mp ((Json.mem_objectItems_record hkeys).mp hkv)
      obtain ⟨rfl, hv⟩ := Prod.mk.inj heq
      obtain ⟨n', hn', rfl⟩ := Option.map_eq_some_iff.mp hv
      obtain rfl : role' = role :=
        Option.some.inj ((tierRoleFromString_toString role').symm.trans hrole)
      obtain rfl : n' = n := Option.some.inj hn
      exact hn'
    · intro hn
      refine ⟨(role.toString, .number n), (Json.mem_objectItems_record hkeys).mpr ?_, ?_⟩
      · refine List.mem_map.mpr ⟨role, ?_, by rw [hn]; rfl⟩
        cases role <;> decide
      · exact roleWeightEntry_eq_some_iff.mpr ⟨tierRoleFromString_toString role, rfl⟩
  refine Finmap.ext_lookup ?_
  intro role
  rw [roleWeightFromJson]
  cases hn : weights.lookup role with
  | none =>
    rw [SortedMap.lookup_readEntries_of_notMem, Finmap.lookup_empty]
    intro kv hkv n hread
    cases hn.symm.trans ((hentry role n).mp ⟨kv, hkv, hread⟩)
  | some n =>
    refine SortedMap.lookup_readEntries_of_mem ((hentry role n).mpr hn) ?_ ∅
    intro kv hkv n' hread
    exact Option.some.inj (((hentry role n').mp ⟨kv, hkv, hread⟩).symm.trans hn)

theorem aggregateFromJson_record (a : AggregateConfig F) :
    aggregateFromJson (.record (aggregateFields a)) =
      { considerHierarchy := a.considerHierarchy, roleWeight := a.roleWeight } := by
  have hkeys : ((aggregateFields a).map Prod.fst).Nodup :=
    show ["consider_hierarchy", "role_weight", "bottleneck_penalty", "reserve_exhaustion_penalty",
      "response_feasibility_penalty"].Nodup by decide
  have h := Json.find_record_at hkeys
  rw [aggregateFromJson, Json.readOr_of_find (h 0 _ _ rfl), Json.readOr_of_find (h 1 _ _ rfl),
    roleWeightFromJson_record]
  rfl

omit [JsonDouble F] in
theorem responseRuleFromJson_record (rule : ResponseRule) :
    responseRuleFromJson (.record (responseRuleFields rule) : Json String F) = rule := by
  have hkeys : ((responseRuleFields rule : List (String × Option (Json String F))).map
      Prod.fst).Nodup := show ["level", "actions"].Nodup by decide
  have h := Json.find_record_at hkeys
  rw [responseRuleFromJson,
    Json.readEnum_of_find (h 0 _ _ rfl) (pressureLevelFromString_toString rule.level),
    Json.readOr_of_find (h 1 _ _ rfl), actionsFromJson_actionsToJson]

/-! ## Policies -/

/-- `kPolicySchemaVersion` (serialize.h:26). -/
def kPolicySchemaVersion : Int64 := 1

/-- The fields `policy_to_json` writes. -/
def policyFields (p : PressurePolicy F) : List (String × Option (Json String F)) :=
  [("schema", some (.ofInt64 kPolicySchemaVersion)),
   ("version", some (.ofUInt64 p.version)),
   ("name", some (.string p.name)),
   ("thresholds", some (.record (thresholdsFields p.thresholds))),
   ("hysteresis", some (.record (hysteresisFields p.hysteresis))),
   ("weights", some (.record (weightsFields p.weights))),
   ("aggregate", some (.record (aggregateFields p.aggregate))),
   ("freshness", some (.record (freshnessFields p.freshness))),
   ("response_rules",
    some (.array (p.responseRules.map fun rule => .record (responseRuleFields rule)))),
   ("max_queued_events", some (.ofUInt64 p.maxQueuedEvents)),
   ("max_relief_bytes", some (.ofUInt64 p.maxReliefBytes))]

/-- `policy_to_json` (serialize.cpp:54). -/
def policyToJson (p : PressurePolicy F) : Json String F := .record (policyFields p)

/-- `policy_from_json` (serialize.cpp:125). -/
def policyFromJson (j : Json String F) : Option (PressurePolicy F) :=
  if j.isObject = false then none
  else
    match j.find "schema" with
    | none => none
    | some schema =>
      if schema.isNumber = false then none
      else if schema.asInt64.getD (-1) ≠ kPolicySchemaVersion then none
      else do
        let version ← j.writeU64 "version"
        let th ← j.find "thresholds"
        let thresholds ← thresholdsFromJson th
        let p : PressurePolicy F :=
          { version := version
            name := (j.writeString "name").getD "default"
            thresholds := thresholds
            hysteresis := j.readOr "hysteresis" {} hysteresisFromJson
            weights := j.readOr "weights" {} weightsFromJson
            aggregate := j.readOr "aggregate" {} aggregateFromJson
            -- `freshness` is written but not looked for
            responseRules :=
              j.readOr "response_rules" [] fun rules => rules.arrayItems.map responseRuleFromJson
            maxQueuedEvents := j.readOr "max_queued_events" 4096 fun v => v.asUInt64.getD 4096
            maxReliefBytes :=
              j.readOr "max_relief_bytes" 18446744073709551615 fun v =>
                v.asUInt64.getD 18446744073709551615 }
        if (validatePolicy p).isSome then none else some p

/-- What a written policy is read as, if its version is read as `version`, before it
is checked. -/
def PressurePolicy.reread (p : PressurePolicy F) (version : UInt64) : PressurePolicy F :=
  { p with
    version := version
    aggregate := { considerHierarchy := p.aggregate.considerHierarchy
                   roleWeight := p.aggregate.roleWeight }
    freshness := {}
    maxQueuedEvents := (stored F p.maxQueuedEvents).getD 4096
    maxReliefBytes := (stored F p.maxReliefBytes).getD 18446744073709551615 }

theorem policyFields_keys (p : PressurePolicy F) : ((policyFields p).map Prod.fst).Nodup :=
  show ["schema", "version", "name", "thresholds", "hysteresis", "weights", "aggregate",
    "freshness", "response_rules", "max_queued_events", "max_relief_bytes"].Nodup by decide

/-- **Reading a written policy**, if its thresholds are fractions. -/
theorem policyFromJson_policyToJson [ExactIntegers F] {p : PressurePolicy F}
    (hok : p.thresholds.allIn01 = true) :
    policyFromJson (policyToJson p) =
      (stored F p.version).bind fun version =>
        if (validatePolicy (p.reread version)).isSome then none else some (p.reread version) := by
  have h : ∀ (i : Nat) (key : String) (v : Option (Json String F)),
      (policyFields p)[i]? = some (key, v) → (policyToJson p).find key = v :=
    Json.find_record_at (policyFields_keys p)
  have hschema : (Json.ofInt64 kPolicySchemaVersion : Json String F).asInt64 =
      some kPolicySchemaVersion := Json.asInt64_ofInt64 (by decide)
  have hname : (policyToJson p).writeString "name" = some p.name := by
    rw [Json.writeString, h 2 _ _ rfl]
    rfl
  have hrules : (policyToJson p).readOr "response_rules" []
      (fun rules => rules.arrayItems.map responseRuleFromJson) = p.responseRules := by
    rw [Json.readOr_of_find (h 8 _ _ rfl)]
    show (p.responseRules.map fun rule => Json.record (responseRuleFields rule)).map
      responseRuleFromJson = p.responseRules
    simp only [List.map_map, Function.comp_def, responseRuleFromJson_record, List.map_id']
  rw [policyFromJson, if_neg (by rintro ⟨⟩), h 0 _ _ rfl]
  show (if _ then none else
    if (Json.ofInt64 kPolicySchemaVersion : Json String F).asInt64.getD (-1) ≠
      kPolicySchemaVersion then none else _) = _
  rw [if_neg (by rintro ⟨⟩), hschema, if_neg (by simp), Json.writeU64_of_find (h 1 _ _ rfl),
    h 3 _ _ rfl]
  simp only [Option.bind_eq_bind, Option.bind_some, thresholdsFromJson_record hok, hname, hrules,
    Json.readOr_of_find (h 4 _ _ rfl), hysteresisFromJson_record,
    Json.readOr_of_find (h 5 _ _ rfl), weightsFromJson_record,
    Json.readOr_of_find (h 6 _ _ rfl), aggregateFromJson_record,
    Json.readOr_of_find (h 9 _ _ rfl), Json.readOr_of_find (h 10 _ _ rfl)]
  rfl

end MemoryPressure
