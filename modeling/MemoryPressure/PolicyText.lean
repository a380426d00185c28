import MemoryPressure.PolicyRoundTrip
import MemoryPressure.SnapshotText

/-!
# Policies as texts (`examples/policy_serialization.cpp`)

`policy_serialization` dumps the default policy under a name of its own and reads the
text back.

- `legible_policyToJson`: what `policy_to_json` writes is legible, under the conditions
  on integers, numbers and strings that a snapshot is.
- `stored_unlimited`: the unlimited bound on relief is cast to `-1`, which no reader of
  unsigned numbers accepts, so that the reader's default restores it.
- `policy_text_round_trip`: the text of a policy that passes its check is read as the
  policy exactly when the fields the reader has no line for are at their defaults.

The document side is `PolicyRoundTrip.lean`; what a text adds is that the parser gets the
document back (`Json/Document.lean`), for which the document has to be legible and the text
within the parser's size limit. A policy has no bound on its response rules or on its name,
so the limit is a condition and not a consequence of the check.

`SignsIntegers` is the one promise of `double` that the unlimited bound needs: the integer
below zero is read as no unsigned number. The unlimited bound comes back by way of the
default that takes the place of what is not read, which is why it survives and any other
bound above `2 ^ 53` does not.
-/

namespace MemoryPressure

open Json JsonText

/-! ## Fields -/

section

variable {F : Type} [Double F]

/-- The unsigned integer fields of a policy, its bound on relief apart. -/
def PressurePolicy.integers (p : PressurePolicy F) : List (Option Nat) :=
  [some p.version.toNat, some p.maxQueuedEvents.toNat, some p.freshness.defaultMaxAgeUs.toNat]
    ++ (SortedMap.entriesOf p.freshness.perProviderMaxAgeUs).map fun kv => some kv.2.toNat

def Thresholds.numbers (t : Thresholds F) : List F :=
  [t.normalExit, t.elevatedEnter, t.elevatedExit, t.highEnter, t.highExit, t.criticalEnter,
   t.criticalExit, t.exhaustedEnter, t.exhaustedExit]

def HysteresisConfig.numbers (h : HysteresisConfig F) : List F :=
  [h.minDwellDurationMs, h.escalationDelayMs, h.recoveryDelayMs]

def ScoreWeights.numbers (w : ScoreWeights F) : List F :=
  [w.utilization, w.freeDeficit, w.reserveDeficit, w.growthRate, w.allocationFailure,
   w.fragmentation, w.reclaimableDeficit, w.confidencePenalty, w.stalePenalty]

def AggregateConfig.numbers (a : AggregateConfig F) : List F :=
  [a.bottleneckPenalty, a.reserveExhaustionPenalty, a.responseFeasibilityPenalty]
    ++ tierRoles.filterMap a.roleWeight.lookup

/-- The numbers of a policy that are no integers. -/
def PressurePolicy.numbers (p : PressurePolicy F) : List F :=
  p.thresholds.numbers ++ p.hysteresis.numbers ++ p.weights.numbers ++ p.aggregate.numbers

/-- The texts of a policy that are no spellings. -/
def PressurePolicy.texts (p : PressurePolicy F) : List String :=
  p.name :: (SortedMap.entriesOf p.freshness.perProviderMaxAgeUs).map Prod.fst

end

variable {F : Type} [DecimalDouble F] [ReadsIntegers F] {n : Nat}

/-! ## Legible documents -/

omit [ReadsIntegers F] in
theorem legible_thresholds {t : Thresholds F} (h : ∀ x ∈ t.numbers, Reads x) :
    (Json.record (thresholdsFields t)).Legible (n + 1) := by
  simp only [Thresholds.numbers, List.forall_mem_cons] at h
  refine legible_record (show ∀ key ∈ ["normal_exit", "elevated_enter", "elevated_exit",
    "high_enter", "high_exit", "critical_enter", "critical_exit", "exhausted_enter",
    "exhausted_exit"], Short key by decide) ?_
  simp [thresholdsFields, h]

theorem legible_ofUInt32 (k : UInt32) : (Json.ofUInt64 k.toUInt64 : Json String F).Legible n := by
  have hlt := k.toNat_lt
  exact legible_ofUInt64 (by rw [UInt32.toNat_toUInt64]; omega)

theorem legible_hysteresis {h : HysteresisConfig F} (hnumbers : ∀ x ∈ h.numbers, Reads x) :
    (Json.record (hysteresisFields h)).Legible (n + 1) := by
  simp only [HysteresisConfig.numbers, List.forall_mem_cons] at hnumbers
  refine legible_record (show ∀ key ∈ ["min_dwell_observations", "min_dwell_duration_ms",
    "escalation_delay_ms", "recovery_delay_ms", "immediate_emergency_escalation",
    "max_debounce_observations"], Short key by decide) ?_
  simp [hysteresisFields, hnumbers, legible_ofUInt32]

omit [ReadsIntegers F] in
theorem legible_weights {w : ScoreWeights F} (h : ∀ x ∈ w.numbers, Reads x) :
    (Json.record (weightsFields w)).Legible (n + 1) := by
  simp only [ScoreWeights.numbers, List.forall_mem_cons] at h
  refine legible_record (show ∀ key ∈ ["utilization", "free_deficit", "reserve_deficit",
    "growth_rate", "allocation_failure", "fragmentation", "reclaimable_deficit",
    "confidence_penalty", "stale_penalty"], Short key by decide) ?_
  simp [weightsFields, h]

omit [ReadsIntegers F] in
theorem legible_roleWeight {weights : Finmap fun _ : TierRole => F}
    (h : ∀ x ∈ tierRoles.filterMap weights.lookup, Reads x) :
    (Json.record (roleWeightFields weights)).Legible (n + 1) := by
  refine legible_record (show ∀ key ∈ ["ROOT", "ACCELERATOR", "STAGING", "BUFFER", "PERSISTENT",
    "CUSTOM"], Short key by decide) (List.forall_mem_map.mpr ?_)
  intro role hrole v hv
  obtain ⟨x, hx, rfl⟩ := Option.map_eq_some_iff.mp hv
  exact .number (h x (List.mem_filterMap.mpr ⟨role, hrole, hx⟩))

omit [ReadsIntegers F] in
theorem legible_aggregate {a : AggregateConfig F} (h : ∀ x ∈ a.numbers, Reads x) :
    (Json.record (aggregateFields a)).Legible (n + 2) := by
  obtain ⟨hpenalties, hweights⟩ := List.forall_mem_append.mp h
  simp only [List.forall_mem_cons] at hpenalties
  refine legible_record (show ∀ key ∈ ["consider_hierarchy", "role_weight", "bottleneck_penalty",
    "reserve_exhaustion_penalty", "response_feasibility_penalty"], Short key by decide) ?_
  simp [aggregateFields, hpenalties, legible_roleWeight hweights]

theorem legible_freshness {f : FreshnessConfig} (hdefault : f.defaultMaxAgeUs.toNat ≤ 2 ^ 53)
    (hages : ∀ kv ∈ SortedMap.entriesOf f.perProviderMaxAgeUs, kv.2.toNat ≤ 2 ^ 53)
    (hnames : ∀ kv ∈ SortedMap.entriesOf f.perProviderMaxAgeUs, Short kv.1) :
    (Json.record (freshnessFields f) : Json String F).Legible (n + 2) := by
  refine legible_record (show ∀ key ∈ ["default_max_age_us", "per_provider_max_age_us"], Short key
    by decide) ?_
  have hmap : (Json.ofFields ((SortedMap.entriesOf f.perProviderMaxAgeUs).map fun kv =>
      (kv.1, Json.ofUInt64 kv.2)) : Json String F).Legible (n + 1) :=
    legible_ofFields (List.forall_mem_map.mpr hnames)
      (List.forall_mem_map.mpr fun kv hkv => legible_ofUInt64 (hages kv hkv))
  simp [freshnessFields, legible_ofUInt64 hdefault, hmap]

omit [ReadsIntegers F] in
theorem legible_responseRule (rule : ResponseRule) :
    (Json.record (responseRuleFields rule) : Json String F).Legible (n + 2) := by
  refine legible_record (show ∀ key ∈ ["level", "actions"], Short key by decide) ?_
  simp [responseRuleFields, short_pressureLevel, legible_actionsToJson]

/-- A bound on relief that is written as an integer a `double` holds: one up to `2 ^ 53`
bytes, or none at all. -/
def ReliefStored (maxReliefBytes : UInt64) : Prop :=
  maxReliefBytes.toNat ≤ 2 ^ 53 ∨ maxReliefBytes = 18446744073709551615

theorem legible_relief {maxReliefBytes : UInt64} (h : ReliefStored maxReliefBytes) :
    (Json.ofUInt64 maxReliefBytes : Json String F).Legible n := by
  rcases h with h | rfl
  · exact legible_ofUInt64 h
  · exact legible_ofInt64 (by decide)

theorem legible_policyToJson {p : PressurePolicy F} (hint : AtMost (2 ^ 53) p.integers)
    (hrelief : ReliefStored p.maxReliefBytes) (hnumbers : ∀ x ∈ p.numbers, Reads x)
    (htexts : ∀ t ∈ p.texts, Short t) : (policyToJson p).Legible 4 := by
  simp only [PressurePolicy.integers, atMost_append, atMost_cons, forall_mem_some] at hint
  obtain ⟨⟨hversion, hqueued, hdefault, -⟩, hages⟩ := hint
  simp only [PressurePolicy.numbers, List.forall_mem_append] at hnumbers
  obtain ⟨⟨⟨hthresholds, hhysteresis⟩, hweights⟩, haggregate⟩ := hnumbers
  obtain ⟨hname, hproviders⟩ := List.forall_mem_cons.mp htexts
  have hfresh : (Json.record (freshnessFields p.freshness) : Json String F).Legible 3 :=
    legible_freshness hdefault (fun kv hkv => hages _ (List.mem_map_of_mem hkv) _ rfl)
      fun kv hkv => hproviders _ (List.mem_map_of_mem hkv)
  have hrules : ∀ rule ∈ p.responseRules,
      (Json.record (responseRuleFields rule) : Json String F).Legible 2 :=
    fun rule _ => legible_responseRule rule
  have hschema : (Json.ofInt64 kPolicySchemaVersion : Json String F).Legible 3 :=
    legible_ofInt64 (by decide)
  refine legible_record (show ∀ key ∈ ["schema", "version", "name", "thresholds", "hysteresis",
    "weights", "aggregate", "freshness", "response_rules", "max_queued_events",
    "max_relief_bytes"], Short key by decide) ?_
  simp [policyFields, hschema, legible_ofUInt64 hversion, hname, legible_thresholds hthresholds,
    legible_hysteresis hhysteresis, legible_weights hweights, legible_aggregate haggregate, hfresh,
    legible_map hrules, legible_ofUInt64 hqueued, legible_relief hrelief]

/-! ## Round trip -/

/-- What `double` promises of the integer below zero. -/
class SignsIntegers (F : Type) [Double F] : Prop where
  ofInt_neg_one_lt : (Double.ofInt (-1) : F) < Double.ofInt 0

instance signsIntegersRat : SignsIntegers ℚ where
  ofInt_neg_one_lt := by decide

/-- **No bound on relief is written as `-1`**, and read as no unsigned number. -/
theorem stored_unlimited [SignsIntegers F] : stored F 18446744073709551615 = none := by
  have hcast : (Json.ofUInt64 18446744073709551615 : Json String F)
      = .number (Double.ofInt (-1)) := by
    have hint : (18446744073709551615 : UInt64).toInt64.toInt = -1 := by decide
    rw [Json.ofUInt64, Json.ofInt64, hint]
  rw [stored, hcast, Json.asUInt64, Json.asNumber]
  simp only [ExactIntegers.isFinite_ofInt (F := F) (-1) (by decide),
    ExactIntegers.floor_ofInt (F := F) (-1) (by decide)]
  rw [if_neg (by simp), if_neg (by simp), if_pos (.inl SignsIntegers.ofInt_neg_one_lt)]

theorem reread_relief [SignsIntegers F] {maxReliefBytes : UInt64}
    (h : ReliefStored maxReliefBytes) :
    (stored F maxReliefBytes).getD 18446744073709551615 = maxReliefBytes := by
  rcases h with h | rfl
  · rw [stored_of_le h, Option.getD_some]
  · rw [stored_unlimited, Option.getD_none]

/-- The text of a policy (policy_serialization.cpp:8). -/
def policyToText (p : PressurePolicy F) : Bytes := (policyToJson p).toText

/-- The policy of a text (policy_serialization.cpp:10). -/
def policyOfText (text : Bytes) : Option (PressurePolicy F) :=
  (Json.ofText text).bind policyFromJson

/-- **Which policies come back from their text.** The text of a policy that passes its
check, whose integers are at most `2 ^ 53`, its bound on relief that or unlimited, whose
other numbers are read back and whose strings are short, if it is within the parser's size
limit, is read as the policy, equal in every field, exactly when the penalties of its
aggregation and its freshness bounds are the default ones. The size is a condition of its
own: a policy that passes its check may have any number of response rules. -/
theorem policy_text_round_trip [SignsIntegers F] (p : PressurePolicy F)
    (hvalid : validatePolicy p = none) (hint : AtMost (2 ^ 53) p.integers)
    (hrelief : ReliefStored p.maxReliefBytes) (hnumbers : ∀ x ∈ p.numbers, Reads x)
    (htexts : ∀ t ∈ p.texts, Short t)
    (hlen : (policyToText p).length ≤ ({} : JsonParseLimits).maxBytes) :
    policyOfText (policyToText p) = some p ↔ p.UnreadAtDefault := by
  have hlegible := legible_policyToJson hint hrelief hnumbers htexts
  have hversion : p.version.toNat ≤ 2 ^ 53 := hint _ List.mem_cons_self _ rfl
  have hqueued : p.maxQueuedEvents.toNat ≤ 2 ^ 53 :=
    hint _ (List.mem_cons_of_mem _ List.mem_cons_self) _ rfl
  rw [policyOfText, policyToText, hlegible.ofText_toText (by decide) hlen, Option.bind_some,
    policyFromJson_of_valid hvalid hversion hqueued, Option.some_inj,
    p.reread_eq_iff_of_relief hqueued (reread_relief hrelief)]

/-- The policy of `policy_serialization`, its relief unlimited. -/
def examplePolicy : PressurePolicy ℚ := { defaultPolicy with version := 3, name := "example" }

theorem policy_text_round_trip_example :
    policyOfText (policyToText examplePolicy) = some examplePolicy := by
  have hnumbers : ∀ x ∈ examplePolicy.numbers,
      (JsonDouble.fromChars (serializeNumber x).1 : Option (ℚ × Bytes)) = some (x, []) ∧
        (serializeNumber x).2 = true := by decide +kernel
  refine (policy_text_round_trip examplePolicy (by decide +kernel) (by decide +kernel) (.inr rfl) ?_
    (by decide +kernel) (by decide +kernel)).mpr ⟨rfl, rfl, rfl, rfl⟩
  intro x hx
  obtain ⟨hscan, hflag⟩ := hnumbers x hx
  exact reads_of_scan hscan hflag

end MemoryPressure
