import MemoryPressure.Codec
import MemoryPressure.Foundation.Keyed
import MemoryPressure.Json.Record
import MemoryPressure.Spelling

/-!
# Snapshots as documents (`serialize.cpp`)

Writers and readers of budgets, domain states and snapshots, field by field in
the source's order, and what reading makes of what was written.

- Texts, numbers, flags, lists and enumerators come back as they were, but for a
  provider's partial status (`ProviderStatus.reread`).
- An unsigned number comes back as `stored` has it, or as the reader's default.
- `snapshotFromJson_snapshotToJson`: a written snapshot is read exactly when no id
  repeats, and then as `Snapshot.reread`.

A counter the model counts in `Nat` is written as the 64-bit number it stands for.

**Layout.** Each record has the list of fields its writer puts, the document made of them,
the reader, and what a written record is reread as; the reading lemma is stated right
after. A record inside another is read by its own lemma. Loops over arrays are `filterMap`
where the source passes over an entry it cannot read, and a recursion with the ids seen so
far where it refuses the document (`domainsFromJson_map`).

**What refuses a written snapshot.** An id that was seen before, and nothing else: a domain
whose budget fails its check has the default one (`Budget.rereadOrDefault`), and a number
that is not read is 0. So what a snapshot is reread as is a total function, and
`SnapshotRoundTrip.lean` asks when it is the identity, `Lossless.lean` what becomes of the
integers where it is not.
-/

namespace MemoryPressure

variable {F : Type} [JsonDouble F]

/-- What is read back of a written unsigned number, if anything. -/
def stored (F : Type) [JsonDouble F] (n : UInt64) : Option UInt64 :=
  (Json.ofUInt64 n : Json String F).asUInt64

/-- What the lenient readers make of it. -/
def kept (F : Type) [JsonDouble F] (n : UInt64) : UInt64 := (stored F n).getD 0

theorem stored_of_le [ExactIntegers F] {n : UInt64} (h : n.toNat ≤ 2 ^ 53) :
    stored F n = some n :=
  Json.asUInt64_ofUInt64 h

theorem kept_of_le [ExactIntegers F] {n : UInt64} (h : n.toNat ≤ 2 ^ 53) : kept F n = n := by
  rw [kept, stored_of_le h, Option.getD_some]

/-! ## Budgets -/

/-- The fields of one entry of `reserves` (serialize.cpp:215). -/
def reserveFields (rv : Reserve) : List (String × Option (Json String F)) :=
  [("kind", some (.string rv.kind.toString)),
   ("name", some (.string rv.name)),
   ("bytes", some (.ofUInt64 rv.bytes))]

/-- The fields `budget_to_json` writes. -/
def budgetFields (b : Budget) : List (String × Option (Json String F)) :=
  [("version", some (.ofUInt64 b.version)),
   ("hard_capacity", some (.ofUInt64 b.hardCapacity)),
   ("soft_capacity", b.softCapacity.map .ofUInt64),
   ("emergency_reserve_bytes", some (.ofUInt64 b.emergencyReserveBytes)),
   ("minimum_free_reserve", some (.ofUInt64 b.minimumFreeReserve)),
   ("reclaim_target", some (.ofUInt64 b.reclaimTarget)),
   ("demotion_target", some (.ofUInt64 b.demotionTarget)),
   ("admission_headroom", some (.ofUInt64 b.admissionHeadroom)),
   ("owner", some (.string b.owner)),
   ("reserves", some (.array (b.reserves.map fun rv => .record (reserveFields rv))))]

/-- `budget_to_json` (serialize.cpp:202). -/
def budgetToJson (b : Budget) : Json String F := .record (budgetFields b)

/-- One turn of the `reserves` loop (serialize.cpp:239). -/
def reserveFromJson (rv : Json String F) : Reserve where
  kind := rv.readEnum reserveKindFromString .custom "kind"
  name := rv.readText "name"
  bytes := rv.readUInt64 "bytes"

/-- `budget_from_json` (serialize.cpp:226). -/
def budgetFromJson (j : Json String F) : Option Budget :=
  if j.isObject = false then none
  else
    match (j.find "hard_capacity").bind Json.asUInt64 with
    | none => none
    | some hardCapacity =>
      -- only the hard capacity is required; a number that is not read counts as 0
      let b : Budget :=
        { hardCapacity := hardCapacity
          softCapacity := j.readOr "soft_capacity" none Json.asUInt64
          emergencyReserveBytes := j.readUInt64 "emergency_reserve_bytes"
          minimumFreeReserve := j.readUInt64 "minimum_free_reserve"
          reclaimTarget := j.readUInt64 "reclaim_target"
          demotionTarget := j.readUInt64 "demotion_target"
          admissionHeadroom := j.readUInt64 "admission_headroom"
          owner := j.readText "owner"
          version := j.readUInt64 "version"
          reserves := j.readOr "reserves" [] fun res => res.arrayItems.map reserveFromJson }
      if (validateBudget b).isSome then none else some b

theorem reserveFields_keys (rv : Reserve) :
    ((reserveFields rv : List (String × Option (Json String F))).map Prod.fst).Nodup :=
  show ["kind", "name", "bytes"].Nodup by decide

theorem reserveFromJson_record (rv : Reserve) :
    reserveFromJson (.record (reserveFields rv) : Json String F) =
      { rv with bytes := kept F rv.bytes } := by
  have h := Json.find_record_at (reserveFields_keys (F := F) rv)
  rw [reserveFromJson, Json.readEnum_of_find (h 0 _ _ rfl) (reserveKindFromString_toString rv.kind),
    Json.readText_of_find (h 1 _ _ rfl), Json.readUInt64_of_find (h 2 _ _ rfl)]
  rfl

theorem budgetFields_keys (b : Budget) :
    ((budgetFields b : List (String × Option (Json String F))).map Prod.fst).Nodup :=
  show ["version", "hard_capacity", "soft_capacity", "emergency_reserve_bytes",
    "minimum_free_reserve", "reclaim_target", "demotion_target", "admission_headroom", "owner",
    "reserves"].Nodup by decide

/-- What a written budget is read as, if its hard capacity is read as `hard`,
before it is checked. -/
def Budget.reread (F : Type) [JsonDouble F] (b : Budget) (hard : UInt64) : Budget where
  hardCapacity := hard
  softCapacity := b.softCapacity.bind (stored F)
  reserves := b.reserves.map fun rv => { rv with bytes := kept F rv.bytes }
  emergencyReserveBytes := kept F b.emergencyReserveBytes
  minimumFreeReserve := kept F b.minimumFreeReserve
  reclaimTarget := kept F b.reclaimTarget
  demotionTarget := kept F b.demotionTarget
  admissionHeadroom := kept F b.admissionHeadroom
  owner := b.owner
  version := kept F b.version

theorem find_budgetToJson (b : Budget) (i : Nat) (key : String) (v : Option (Json String F))
    (h : (budgetFields b)[i]? = some (key, v)) : (budgetToJson b : Json String F).find key = v :=
  Json.find_record_at (budgetFields_keys b) i key v h

/-- **Reading a written budget.** -/
theorem budgetFromJson_budgetToJson (b : Budget) :
    budgetFromJson (budgetToJson b : Json String F) =
      (stored F b.hardCapacity).bind fun hard =>
        if (validateBudget (b.reread F hard)).isSome then none else some (b.reread F hard) := by
  have h := find_budgetToJson (F := F) b
  have hsoft : (budgetToJson b : Json String F).readOr "soft_capacity" none Json.asUInt64 =
      b.softCapacity.bind (stored F) := by
    rw [Json.readOr, h 2 _ _ rfl]
    cases b.softCapacity <;> rfl
  have hreserves : (budgetToJson b : Json String F).readOr "reserves" []
      (fun res => res.arrayItems.map reserveFromJson) =
        b.reserves.map fun rv => { rv with bytes := kept F rv.bytes } := by
    rw [Json.readOr_of_find (h 9 _ _ rfl)]
    show ((b.reserves.map fun rv => Json.record (reserveFields rv)).map reserveFromJson) = _
    simp only [List.map_map, Function.comp_def, reserveFromJson_record]
  have hhard : ((budgetToJson b : Json String F).find "hard_capacity").bind Json.asUInt64 =
      stored F b.hardCapacity := by
    rw [h 1 _ _ rfl]
    rfl
  rw [budgetFromJson, if_neg (by rintro ⟨⟩), hhard]
  cases stored F b.hardCapacity with
  | none => rfl
  | some hard =>
    simp only [hsoft, hreserves, Json.readUInt64_of_find (h 0 _ _ rfl),
      Json.readUInt64_of_find (h 3 _ _ rfl), Json.readUInt64_of_find (h 4 _ _ rfl),
      Json.readUInt64_of_find (h 5 _ _ rfl), Json.readUInt64_of_find (h 6 _ _ rfl),
      Json.readUInt64_of_find (h 7 _ _ rfl), Json.readText_of_find (h 8 _ _ rfl)]
    rfl

/-! ## Domain states -/

/-- The `actions` and `responses` arrays (serialize.cpp:110 and 350). -/
def actionsToJson (actions : List ResponseAction) : Json String F :=
  .array (actions.map fun a => .string a.toString)

/-- Reading an array of actions back (serialize.cpp:184 and 398): what is no action is passed
over. -/
def actionsFromJson (v : Json String F) : List ResponseAction :=
  v.arrayItems.filterMap fun a => responseActionFromString (a.asString.getD "")

omit [JsonDouble F] in
theorem actionsFromJson_actionsToJson (actions : List ResponseAction) :
    actionsFromJson (actionsToJson actions : Json String F) = actions := by
  show (actions.map fun a => Json.string a.toString).filterMap _ = actions
  rw [List.filterMap_map]
  have hread : ((fun a : Json String F => responseActionFromString (a.asString.getD "")) ∘
      fun a : ResponseAction => Json.string a.toString) = some :=
    funext responseActionFromString_toString
  rw [hread, List.filterMap_some]

/-- The fields `domain_state_to_json` writes. -/
def domainFields (d : DomainState F) : List (String × Option (Json String F)) :=
  [("id", some (.string d.id.toHex)),
   ("type", some (.string d.type.toString)),
   ("provider", some (.string d.provider)),
   ("native_resource_id", some (.string d.nativeResourceId)),
   ("budget", some (budgetToJson d.budget)),
   ("governed", some (.bool d.governed)),
   ("total_capacity", some (.ofUInt64 d.totalCapacity)),
   ("usable_capacity", some (.ofUInt64 d.usableCapacity)),
   ("reserved_bytes", some (.ofUInt64 d.reservedBytes)),
   ("committed", some (.ofUInt64 d.committed)),
   ("resident", some (.ofUInt64 d.resident)),
   ("available", some (.ofUInt64 d.available)),
   ("reclaimable", some (.ofUInt64 d.reclaimable)),
   ("utilization", some (.number d.utilization)),
   ("level", some (.string d.level.toString)),
   ("previous_level", some (.string d.previousLevel.toString)),
   ("in_hysteresis_hold", some (.bool d.inHysteresisHold)),
   ("level_hold_observations", some (.ofUInt64 (UInt64.ofNat d.levelHoldObservations))),
   ("score", some (.number d.score)),
   ("utilization_component", some (.number d.utilizationComponent)),
   ("free_deficit_component", some (.number d.freeDeficitComponent)),
   ("reserve_deficit_component", some (.number d.reserveDeficitComponent)),
   ("growth_component", some (.number d.growthComponent)),
   ("allocation_failure_component", some (.number d.allocationFailureComponent)),
   ("stigma", some (.number d.stigma)),
   ("trend", some (.string d.trend.toString)),
   ("trend_rate", some (.number d.trendRate)),
   ("trend_confidence", some (.number d.trendConfidence)),
   ("trend_window_samples", some (.ofUInt64 (UInt64.ofNat d.trendWindowSamples))),
   ("confidence", some (.string d.confidence.toString)),
   ("provenance", some (.string d.provenance.toString)),
   ("validity", some (.string d.validity.toString)),
   ("timestamp_ms", some (.ofUInt64 d.timestampMs)),
   ("explanation", some (.string d.explanation)),
   ("entered_level_at_ms", some (.ofUInt64 d.enteredLevelAtMs)),
   ("peak_level", some (.ofUInt64 (UInt64.ofNat d.peakLevel))),
   ("responses", some (actionsToJson d.responses))]

/-- `domain_state_to_json` (serialize.cpp:311). -/
def domainStateToJson (d : DomainState F) : Json String F := .record (domainFields d)

/-- `domain_state_from_json` (serialize.cpp:355). -/
def domainStateFromJson (j : Json String F) : Option (DomainState F) :=
  if j.isObject = false then none
  else
    match (j.find "id").bind Json.asString with
    | none => none
    | some text =>
      match PressureDomainId.fromHex text with
      | none => none
      | some id => some
        { id := id
          type := j.readEnum domainTypeFromString .unknown "type"
          provider := j.readText "provider"
          nativeResourceId := j.readText "native_resource_id"
          -- a budget that is refused is no reason to refuse the domain
          budget := j.readOr "budget" {} fun v => (budgetFromJson v).getD {}
          governed := j.readBool "governed"
          totalCapacity := j.readUInt64 "total_capacity"
          usableCapacity := j.readUInt64 "usable_capacity"
          reservedBytes := j.readUInt64 "reserved_bytes"
          committed := j.readUInt64 "committed"
          resident := j.readUInt64 "resident"
          available := j.readUInt64 "available"
          reclaimable := j.readUInt64 "reclaimable"
          utilization := j.readNumber "utilization"
          level := j.readEnum pressureLevelFromString .unknown "level"
          previousLevel := j.readEnum pressureLevelFromString .unknown "previous_level"
          inHysteresisHold := j.readBool "in_hysteresis_hold"
          levelHoldObservations := (j.readUInt64 "level_hold_observations").toNat
          score := j.readNumber "score"
          utilizationComponent := j.readNumber "utilization_component"
          freeDeficitComponent := j.readNumber "free_deficit_component"
          reserveDeficitComponent := j.readNumber "reserve_deficit_component"
          growthComponent := j.readNumber "growth_component"
          allocationFailureComponent := j.readNumber "allocation_failure_component"
          stigma := j.readNumber "stigma"
          trend := j.readEnum trendFromString .unknown "trend"
          trendRate := j.readNumber "trend_rate"
          trendConfidence := j.readNumber "trend_confidence"
          trendWindowSamples := (j.readUInt64 "trend_window_samples").toNat
          confidence := j.readEnum confidenceFromString .unknown "confidence"
          provenance := j.readEnum provenanceFromString .unknown "provenance"
          validity := j.readEnum validityFromString .valid "validity"
          timestampMs := j.readUInt64 "timestamp_ms"
          explanation := j.readText "explanation"
          enteredLevelAtMs := j.readUInt64 "entered_level_at_ms"
          peakLevel := (j.readUInt64 "peak_level").toNat
          responses := j.readOr "responses" [] actionsFromJson }

theorem domainFields_keys (d : DomainState F) : ((domainFields d).map Prod.fst).Nodup :=
  show ["id", "type", "provider", "native_resource_id", "budget", "governed", "total_capacity",
    "usable_capacity", "reserved_bytes", "committed", "resident", "available", "reclaimable",
    "utilization", "level", "previous_level", "in_hysteresis_hold", "level_hold_observations",
    "score", "utilization_component", "free_deficit_component", "reserve_deficit_component",
    "growth_component", "allocation_failure_component", "stigma", "trend", "trend_rate",
    "trend_confidence", "trend_window_samples", "confidence", "provenance", "validity",
    "timestamp_ms", "explanation", "entered_level_at_ms", "peak_level", "responses"].Nodup by decide

theorem find_domainStateToJson (d : DomainState F) (i : Nat) (key : String)
    (v : Option (Json String F)) (h : (domainFields d)[i]? = some (key, v)) :
    (domainStateToJson d).find key = v :=
  Json.find_record_at (domainFields_keys d) i key v h

/-- What a written budget is read as in a domain: the default one if it is refused. -/
def Budget.rereadOrDefault (F : Type) [JsonDouble F] (b : Budget) : Budget :=
  (budgetFromJson (budgetToJson b : Json String F)).getD {}

/-- What a written domain state is read as. -/
def DomainState.reread (d : DomainState F) : DomainState F :=
  { d with
    budget := d.budget.rereadOrDefault F
    totalCapacity := kept F d.totalCapacity
    usableCapacity := kept F d.usableCapacity
    reservedBytes := kept F d.reservedBytes
    committed := kept F d.committed
    resident := kept F d.resident
    available := kept F d.available
    reclaimable := kept F d.reclaimable
    levelHoldObservations := (kept F (UInt64.ofNat d.levelHoldObservations)).toNat
    trendWindowSamples := (kept F (UInt64.ofNat d.trendWindowSamples)).toNat
    timestampMs := kept F d.timestampMs
    enteredLevelAtMs := kept F d.enteredLevelAtMs
    peakLevel := (kept F (UInt64.ofNat d.peakLevel)).toNat }

/-- **Reading a written domain state.** -/
theorem domainStateFromJson_domainStateToJson (d : DomainState F) :
    domainStateFromJson (domainStateToJson d) = some d.reread := by
  have h := find_domainStateToJson d
  rw [domainStateFromJson, if_neg (by rintro ⟨⟩), h 0 _ _ rfl]
  dsimp only [Option.bind_some, Json.asString]
  rw [fromHex_toHex]
  simp only [Json.readEnum_of_find (h 1 _ _ rfl) (domainTypeFromString_toString d.type),
    Json.readText_of_find (h 2 _ _ rfl),
    Json.readText_of_find (h 3 _ _ rfl),
    Json.readOr_of_find (h 4 _ _ rfl),
    Json.readBool_of_find (h 5 _ _ rfl),
    Json.readUInt64_of_find (h 6 _ _ rfl),
    Json.readUInt64_of_find (h 7 _ _ rfl),
    Json.readUInt64_of_find (h 8 _ _ rfl),
    Json.readUInt64_of_find (h 9 _ _ rfl),
    Json.readUInt64_of_find (h 10 _ _ rfl),
    Json.readUInt64_of_find (h 11 _ _ rfl),
    Json.readUInt64_of_find (h 12 _ _ rfl),
    Json.readNumber_of_find (h 13 _ _ rfl),
    Json.readEnum_of_find (h 14 _ _ rfl) (pressureLevelFromString_toString d.level),
    Json.readEnum_of_find (h 15 _ _ rfl) (pressureLevelFromString_toString d.previousLevel),
    Json.readBool_of_find (h 16 _ _ rfl),
    Json.readUInt64_of_find (h 17 _ _ rfl),
    Json.readNumber_of_find (h 18 _ _ rfl),
    Json.readNumber_of_find (h 19 _ _ rfl),
    Json.readNumber_of_find (h 20 _ _ rfl),
    Json.readNumber_of_find (h 21 _ _ rfl),
    Json.readNumber_of_find (h 22 _ _ rfl),
    Json.readNumber_of_find (h 23 _ _ rfl),
    Json.readNumber_of_find (h 24 _ _ rfl),
    Json.readEnum_of_find (h 25 _ _ rfl) (trendFromString_toString d.trend),
    Json.readNumber_of_find (h 26 _ _ rfl),
    Json.readNumber_of_find (h 27 _ _ rfl),
    Json.readUInt64_of_find (h 28 _ _ rfl),
    Json.readEnum_of_find (h 29 _ _ rfl) (confidenceFromString_toString d.confidence),
    Json.readEnum_of_find (h 30 _ _ rfl) (provenanceFromString_toString d.provenance),
    Json.readEnum_of_find (h 31 _ _ rfl) (validityFromString_toString d.validity),
    Json.readUInt64_of_find (h 32 _ _ rfl),
    Json.readText_of_find (h 33 _ _ rfl),
    Json.readUInt64_of_find (h 34 _ _ rfl),
    Json.readUInt64_of_find (h 35 _ _ rfl),
    Json.readOr_of_find (h 36 _ _ rfl),
    actionsFromJson_actionsToJson]
  rfl

/-! ## Snapshots -/

/-- `kSnapshotSchemaVersion` (serialize.h:25). -/
def kSnapshotSchemaVersion : Int64 := 1

/-- The `provider_health` object (serialize.cpp:426). -/
def healthToJson (health : Finmap fun _ : String => ProviderStatus) : Json String F :=
  .ofFields ((SortedMap.entriesOf health).map fun kv => (kv.1, .string kv.2.toString))

/-- Reading `provider_health` back (serialize.cpp:456): an unknown status is `UNAVAILABLE`. -/
def healthFromJson (v : Json String F) : Finmap fun _ : String => ProviderStatus :=
  v.objectItems.foldl (fun health kv =>
    health.insert kv.1 ((providerStatusFromString (kv.2.asString.getD "")).getD .unavailable)) ∅

/-- The fields of the `events` object (serialize.cpp:431). -/
def eventsFields (ev : SnapshotEventSummary) : List (String × Option (Json String F)) :=
  [("count", some (.ofUInt64 ev.count.toUInt64)),
   ("dropped", some (.ofUInt64 ev.dropped.toUInt64))]

/-- Reading the `events` object back (serialize.cpp:467): the class names are not written. -/
def eventsFromJson (v : Json String F) : SnapshotEventSummary where
  count := (v.readUInt64 "count").toUInt32
  dropped := (v.readUInt64 "dropped").toUInt32

/-- The fields `snapshot_to_json` writes. -/
def snapshotFields (s : Snapshot F) : List (String × Option (Json String F)) :=
  [("schema", some (.ofInt64 kSnapshotSchemaVersion)),
   ("id", some (.ofUInt64 (UInt64.ofNat s.id))),
   ("generation", some (.ofUInt64 (UInt64.ofNat s.generation))),
   ("timestamp_ms", some (.ofUInt64 s.timestampMs)),
   ("policy_version", some (.ofUInt64 s.policyVersion)),
   ("policy_name", some (.string s.policyName)),
   ("aggregate_level", some (.string s.aggregateLevel.toString)),
   ("aggregate_score", some (.number s.aggregateScore)),
   ("aggregate_explanation", some (.string s.aggregateExplanation)),
   ("stale_data", some (.bool s.staleData)),
   ("partial_data", some (.bool s.partialData)),
   ("confidence", some (.string s.confidence.toString)),
   ("provenance", some (.string s.provenance.toString)),
   ("warnings", some (.array (s.warnings.map .string))),
   ("provider_health", some (healthToJson s.providerHealth)),
   ("domains", some (.array (s.domains.map domainStateToJson))),
   ("events", some (.record (eventsFields s.events)))]

/-- `snapshot_to_json` (serialize.cpp:406). -/
def snapshotToJson (s : Snapshot F) : Json String F := .record (snapshotFields s)

/-- The `domains` loop of `snapshot_from_json` (serialize.cpp:459), the ids seen
so far given. -/
def domainsFromJson : List PressureDomainId → List (Json String F) → Option (List (DomainState F))
  | _, [] => some []
  | seen, dv :: dvs =>
    match domainStateFromJson dv with
    | none => none
    | some d => if d.id ∈ seen then none else (domainsFromJson (seen ++ [d.id]) dvs).map (d :: ·)

/-- `snapshot_from_json` (serialize.cpp:437). -/
def snapshotFromJson (j : Json String F) : Option (Snapshot F) :=
  if j.isObject = false then none
  else
    match j.find "schema" with
    | none => none
    | some schema =>
      if schema.asInt64.getD (-1) ≠ kSnapshotSchemaVersion then none
      else
        (j.readOr "domains" (some []) fun v => domainsFromJson [] v.arrayItems).map fun domains =>
          { id := (j.readUInt64 "id").toNat
            generation := (j.readUInt64 "generation").toNat
            timestampMs := j.readUInt64 "timestamp_ms"
            policyVersion := j.readUInt64 "policy_version"
            policyName := j.readText "policy_name"
            aggregateLevel := j.readEnum pressureLevelFromString .unknown "aggregate_level"
            aggregateScore := j.readNumber "aggregate_score"
            aggregateExplanation := j.readText "aggregate_explanation"
            staleData := j.readBool "stale_data"
            partialData := j.readBool "partial_data"
            confidence := j.readEnum confidenceFromString .unknown "confidence"
            provenance := j.readEnum provenanceFromString .unknown "provenance"
            warnings := j.readOr "warnings" [] fun v => v.arrayItems.map fun w => w.asString.getD ""
            providerHealth := j.readOr "provider_health" ∅ healthFromJson
            domains := domains
            events := j.readOr "events" {} eventsFromJson }

theorem snapshotFields_keys (s : Snapshot F) : ((snapshotFields s).map Prod.fst).Nodup :=
  show ["schema", "id", "generation", "timestamp_ms", "policy_version", "policy_name",
    "aggregate_level", "aggregate_score", "aggregate_explanation", "stale_data", "partial_data",
    "confidence", "provenance", "warnings", "provider_health", "domains", "events"].Nodup by decide

theorem find_snapshotToJson (s : Snapshot F) (i : Nat) (key : String)
    (v : Option (Json String F)) (h : (snapshotFields s)[i]? = some (key, v)) :
    (snapshotToJson s).find key = v :=
  Json.find_record_at (snapshotFields_keys s) i key v h

omit [JsonDouble F] in
/-- Every provider's status comes back, a partial one as unavailable. -/
theorem healthFromJson_healthToJson (health : Finmap fun _ : String => ProviderStatus) :
    healthFromJson (healthToJson health : Json String F) =
      Keyed.mapVal ProviderStatus.reread health := by
  refine Finmap.ext_lookup ?_
  intro k
  rw [Keyed.lookup_mapVal]
  have h := SortedMap.lookup_foldl_ofEntries
    (fun v : ProviderStatus => (Json.string v.toString : Json String F))
    (fun v : Json String F => (providerStatusFromString (v.asString.getD "")).getD .unavailable)
    (SortedMap.keys_entriesOf_nodup health) k
  rw [SortedMap.lookup_entriesOf] at h
  refine h.trans (congrArg (Option.map · _) (funext ?_))
  intro v
  show (providerStatusFromString v.toString).getD .unavailable = v.reread
  rw [providerStatusFromString_toString, Option.getD_some]

theorem eventsFields_keys (ev : SnapshotEventSummary) :
    ((eventsFields ev : List (String × Option (Json String F))).map Prod.fst).Nodup :=
  show ["count", "dropped"].Nodup by decide

theorem eventsFromJson_record (ev : SnapshotEventSummary) :
    eventsFromJson (.record (eventsFields ev) : Json String F) =
      { count := (kept F ev.count.toUInt64).toUInt32
        dropped := (kept F ev.dropped.toUInt64).toUInt32 } := by
  have h := Json.find_record_at (eventsFields_keys (F := F) ev)
  rw [eventsFromJson, Json.readUInt64_of_find (h 0 _ _ rfl),
    Json.readUInt64_of_find (h 1 _ _ rfl)]
  rfl

/-- **The reader on written domains**: accepted exactly when no id repeats. -/
theorem domainsFromJson_map (ds : List (DomainState F)) (seen : List PressureDomainId)
    (hseen : seen.Nodup) :
    domainsFromJson seen (ds.map domainStateToJson) =
      if (seen ++ ds.map DomainState.id).Nodup then some (ds.map DomainState.reread) else none := by
  induction ds generalizing seen with
  | nil =>
    rw [if_pos (by simpa using hseen)]
    rfl
  | cons d ds ih =>
    rw [List.map_cons, domainsFromJson, domainStateFromJson_domainStateToJson]
    show (if d.id ∈ seen then none else _) = _
    by_cases hid : d.id ∈ seen
    · have hrep : ¬ (seen ++ (d :: ds).map DomainState.id).Nodup := by
        intro hnd
        exact (List.nodup_append.mp hnd).2.2 d.id hid d.id List.mem_cons_self rfl
      rw [if_pos hid, if_neg hrep]
    · have hsnoc : (seen ++ [d.id]).Nodup := by
        refine List.nodup_append.mpr ⟨hseen, List.nodup_singleton _, ?_⟩
        rintro a ha b hb rfl
        exact hid (List.mem_singleton.mp hb ▸ ha)
      rw [if_neg hid, show d.reread.id = d.id from rfl, ih _ hsnoc, List.append_assoc,
        List.singleton_append, List.map_cons, List.map_cons]
      split_ifs <;> rfl

/-- What a written snapshot is read as. -/
def Snapshot.reread (s : Snapshot F) : Snapshot F :=
  { s with
    id := (kept F (UInt64.ofNat s.id)).toNat
    generation := (kept F (UInt64.ofNat s.generation)).toNat
    timestampMs := kept F s.timestampMs
    policyVersion := kept F s.policyVersion
    providerHealth := Keyed.mapVal ProviderStatus.reread s.providerHealth
    domains := s.domains.map DomainState.reread
    events :=
      { count := (kept F s.events.count.toUInt64).toUInt32
        dropped := (kept F s.events.dropped.toUInt64).toUInt32 } }

/-- **Reading a written snapshot.** -/
theorem snapshotFromJson_snapshotToJson [ExactIntegers F] (s : Snapshot F) :
    snapshotFromJson (snapshotToJson s) = if s.ids.Nodup then some s.reread else none := by
  have h := find_snapshotToJson s
  have hschema : (Json.ofInt64 kSnapshotSchemaVersion : Json String F).asInt64 =
      some kSnapshotSchemaVersion := Json.asInt64_ofInt64 (by decide)
  have hdomains : (snapshotToJson s).readOr "domains" (some [])
      (fun v => domainsFromJson [] v.arrayItems) =
        if s.ids.Nodup then some (s.domains.map DomainState.reread) else none := by
    rw [Json.readOr_of_find (h 15 _ _ rfl)]
    exact domainsFromJson_map s.domains [] List.nodup_nil
  have hwarnings : (snapshotToJson s).readOr "warnings" []
      (fun v => v.arrayItems.map fun w => w.asString.getD "") = s.warnings := by
    rw [Json.readOr_of_find (h 13 _ _ rfl)]
    show (s.warnings.map Json.string).map _ = s.warnings
    rw [List.map_map]
    exact List.map_id s.warnings
  rw [snapshotFromJson, if_neg (by rintro ⟨⟩), h 0 _ _ rfl]
  show (if (Json.ofInt64 kSnapshotSchemaVersion : Json String F).asInt64.getD (-1) ≠
    kSnapshotSchemaVersion then none else _) = _
  rw [hschema, if_neg (by simp), hdomains]
  split_ifs with hnd
  · simp only [Option.map_some, hwarnings, Json.readUInt64_of_find (h 1 _ _ rfl),
      Json.readUInt64_of_find (h 2 _ _ rfl), Json.readUInt64_of_find (h 3 _ _ rfl),
      Json.readUInt64_of_find (h 4 _ _ rfl), Json.readText_of_find (h 5 _ _ rfl),
      Json.readEnum_of_find (h 6 _ _ rfl) (pressureLevelFromString_toString s.aggregateLevel),
      Json.readNumber_of_find (h 7 _ _ rfl), Json.readText_of_find (h 8 _ _ rfl),
      Json.readBool_of_find (h 9 _ _ rfl), Json.readBool_of_find (h 10 _ _ rfl),
      Json.readEnum_of_find (h 11 _ _ rfl) (confidenceFromString_toString s.confidence),
      Json.readEnum_of_find (h 12 _ _ rfl) (provenanceFromString_toString s.provenance),
      Json.readOr_of_find (h 14 _ _ rfl), healthFromJson_healthToJson,
      Json.readOr_of_find (h 16 _ _ rfl), eventsFromJson_record]
    rfl
  · rfl

end MemoryPressure
