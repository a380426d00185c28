import MemoryPressure.Codec
import MemoryPressure.Json.Document
import MemoryPressure.SnapshotRoundTrip

/-!
# Snapshots as texts (`examples/snapshot_serialization.cpp`)

`snapshot_serialization` dumps a published snapshot and reads the text back.

- `legible_budgetToJson`, `legible_domainStateToJson`, `legible_snapshotToJson`: what
  the writers write is legible, if the integers are at most `2 ^ 53`, the other
  numbers are read back from their texts, and the strings are short.
- `snapshot_text_round_trip`: so the text of a published snapshot is read as the
  snapshot, exactly when no provider of it is partial.

A document is legible if each of its numbers is read back from the text it is printed as
and each of its strings is within the parser's limit (`Json/Document.lean`). The spellings
of the enumerators are short, once and for all; what is left are the strings that users and
providers choose (`Snapshot.texts`) and the numbers that are no integers
(`Snapshot.numbers`), on which the theorem has its two conditions. Nesting is at most what
the writers put, well within the depth limit.

The number of domains is bounded by nothing, so that the size of the text is a condition
too. How a `double` is printed is a parameter of the model (`JsonDouble.toChars`), and the
condition on numbers asks of those that occur what is documented of `std::to_chars`, that
`std::from_chars` gets them back.
-/

namespace MemoryPressure

open Json JsonText

/-! ## Spellings -/

theorem short_domainType (t : DomainType) : Short t.toString := by cases t <;> decide

theorem short_pressureLevel (l : PressureLevel) : Short l.toString := by cases l <;> decide

theorem short_trend (t : TrendDirection) : Short t.toString := by cases t <;> decide

theorem short_confidence (c : Confidence) : Short c.toString := by cases c <;> decide

theorem short_provenance (p : Provenance) : Short p.toString := by cases p <;> decide

theorem short_validity (v : Validity) : Short v.toString := by cases v <;> decide

theorem short_reserveKind (k : ReserveKind) : Short k.toString := by cases k <;> decide

theorem short_providerStatus (s : ProviderStatus) : Short s.toString := by cases s <;> decide

theorem short_responseAction (a : ResponseAction) : Short a.toString := by cases a <;> decide

/-- A character takes at most four bytes. -/
theorem utf8ByteSize_ofList_le (cs : List Char) :
    (String.ofList cs).utf8ByteSize ≤ 4 * cs.length := by
  induction cs with
  | nil => exact Nat.zero_le _
  | cons c cs ih =>
    have happ : String.ofList (c :: cs) = String.singleton c ++ String.ofList cs := by
      rw [← String.toList_inj]
      simp
    have hc := c.utf8Size_le_four
    rw [happ, String.utf8ByteSize_append, String.utf8ByteSize_singleton, List.length_cons]
    omega

theorem short_toHex (id : PressureDomainId) : Short id.toHex := by
  have hlen : id.toHex.toList.length = 32 := by
    rw [PressureDomainId.toHex, String.toList_append, List.length_append, length_hex16,
      length_hex16]
  have h := utf8ByteSize_ofList_le id.toHex.toList
  rw [String.ofList_toList, hlen] at h
  exact h.trans (by decide)

/-! ## Fields -/

/-- The texts of a budget that are no spellings. -/
def Budget.texts (b : Budget) : List String := b.owner :: b.reserves.map Reserve.name

section

variable {F : Type} [Double F]

/-- The numbers of a domain state that are no integers. -/
def DomainState.numbers (d : DomainState F) : List F :=
  [d.utilization, d.score, d.utilizationComponent, d.freeDeficitComponent,
   d.reserveDeficitComponent, d.growthComponent, d.allocationFailureComponent, d.stigma,
   d.trendRate, d.trendConfidence]

/-- The texts of a domain state that are no spellings. -/
def DomainState.texts (d : DomainState F) : List String :=
  [d.provider, d.nativeResourceId, d.explanation] ++ d.budget.texts

/-- The numbers of a snapshot and its domains that are no integers. -/
def Snapshot.numbers (s : Snapshot F) : List F :=
  s.aggregateScore :: s.domains.flatMap DomainState.numbers

/-- The texts of a snapshot and its domains that are no spellings. -/
def Snapshot.texts (s : Snapshot F) : List String :=
  [s.policyName, s.aggregateExplanation] ++ s.warnings
    ++ (SortedMap.entriesOf s.providerHealth).map Prod.fst ++ s.domains.flatMap DomainState.texts

end

variable {F : Type} [DecimalDouble F] [ReadsIntegers F] {n : Nat}

/-! ## Legible documents -/

theorem legible_budgetToJson {b : Budget} (hint : AtMost (2 ^ 53) b.integers)
    (htexts : ∀ s ∈ b.texts, Short s) : (budgetToJson b : Json String F).Legible (n + 3) := by
  simp only [Budget.integers, List.cons_append, List.nil_append, atMost_cons,
    forall_mem_some] at hint
  obtain ⟨hversion, hhard, hsoft, hemergency, hmin, hreclaim, hdemotion, hheadroom, hreserves⟩ :=
    hint
  obtain ⟨howner, hnames⟩ := List.forall_mem_cons.mp htexts
  have hkeys : ∀ key ∈ (budgetFields b : List (String × Option (Json String F))).map Prod.fst,
      Short key :=
    show ∀ key ∈ ["version", "hard_capacity", "soft_capacity", "emergency_reserve_bytes",
      "minimum_free_reserve", "reclaim_target", "demotion_target", "admission_headroom", "owner",
      "reserves"], Short key by decide
  have hreserve : ∀ rv ∈ b.reserves,
      (Json.record (reserveFields rv) : Json String F).Legible (n + 1) := by
    intro rv hrv
    refine legible_record (show ∀ key ∈ ["kind", "name", "bytes"], Short key by decide) ?_
    simp [reserveFields, short_reserveKind, hnames _ (List.mem_map_of_mem hrv),
      legible_ofUInt64 (hreserves _ (List.mem_map_of_mem hrv) _ rfl)]
  refine legible_record hkeys ?_
  have hsoft' : ∀ c ∈ b.softCapacity, (ofUInt64 c : Json String F).Legible (n + 2) :=
    fun c hc => legible_ofUInt64 (hsoft _ (Option.mem_map_of_mem _ hc))
  simpa [budgetFields, legible_ofUInt64 hversion, legible_ofUInt64 hhard, howner,
    legible_ofUInt64 hemergency, legible_ofUInt64 hmin, legible_ofUInt64 hreclaim,
    legible_ofUInt64 hdemotion, legible_ofUInt64 hheadroom, legible_map hreserve] using hsoft'

omit [ReadsIntegers F] in
theorem legible_actionsToJson (actions : List ResponseAction) :
    (actionsToJson actions : Json String F).Legible (n + 1) :=
  legible_map fun a _ => .string (short_responseAction a)

/-- A counter in `Nat` is legible as the 64-bit number it stands for. -/
theorem legible_ofNat {k : Nat} (hk : k ≤ 2 ^ 53) :
    (ofUInt64 (UInt64.ofNat k) : Json String F).Legible n :=
  legible_ofUInt64 (by rw [UInt64.toNat_ofNat']; omega)

theorem legible_domainStateToJson {d : DomainState F} (hint : AtMost (2 ^ 53) d.integers)
    (hnumbers : ∀ x ∈ d.numbers, Reads x) (htexts : ∀ s ∈ d.texts, Short s) :
    (domainStateToJson d).Legible (n + 4) := by
  simp only [DomainState.integers, atMost_append, atMost_cons, forall_mem_some] at hint
  obtain ⟨hbudget, htotal, husable, hreserved, hcommitted, hresident, havailable,
    hreclaimable, hhold,
    htrend, htime, hentered, hpeak, -⟩ := hint
  simp only [DomainState.numbers, List.forall_mem_cons] at hnumbers
  obtain ⟨hutil, hscore, hutilc, hfreec, hreservec, hgrowthc, hfailc, hstigma, hrate, hconf, -⟩ :=
    hnumbers
  obtain ⟨hown, hbudgettexts⟩ := List.forall_mem_append.mp htexts
  simp only [List.forall_mem_cons] at hown
  obtain ⟨hprovider, hnative, hexplanation, -⟩ := hown
  have hkeys : ∀ key ∈ (domainFields d).map Prod.fst, Short key :=
    show ∀ key ∈ ["id", "type", "provider", "native_resource_id", "budget", "governed",
      "total_capacity", "usable_capacity", "reserved_bytes", "committed", "resident", "available",
      "reclaimable", "utilization", "level", "previous_level", "in_hysteresis_hold",
      "level_hold_observations", "score", "utilization_component", "free_deficit_component",
      "reserve_deficit_component", "growth_component", "allocation_failure_component", "stigma",
      "trend", "trend_rate", "trend_confidence", "trend_window_samples", "confidence", "provenance",
      "validity", "timestamp_ms", "explanation", "entered_level_at_ms", "peak_level", "responses"],
      Short key by decide
  refine legible_record hkeys ?_
  simp [domainFields, short_toHex, short_domainType, short_pressureLevel, short_trend,
    short_confidence, short_provenance, short_validity, hprovider, hnative, hexplanation, hutil,
    hscore, hutilc, hfreec, hreservec, hgrowthc, hfailc, hstigma, hrate, hconf,
    legible_budgetToJson hbudget hbudgettexts, legible_ofUInt64 htotal, legible_ofUInt64 husable,
    legible_ofUInt64 hreserved, legible_ofUInt64 hcommitted, legible_ofUInt64 hresident,
    legible_ofUInt64 havailable, legible_ofUInt64 hreclaimable, legible_ofNat hhold,
    legible_ofNat htrend, legible_ofUInt64 htime, legible_ofUInt64 hentered, legible_ofNat hpeak,
    legible_actionsToJson]

omit [ReadsIntegers F] in
theorem legible_healthToJson {health : Finmap fun _ : String => ProviderStatus}
    (hnames : ∀ name ∈ (SortedMap.entriesOf health).map Prod.fst, Short name) :
    (healthToJson health : Json String F).Legible (n + 1) := by
  refine legible_ofFields (List.forall_mem_map.mpr ?_) (List.forall_mem_map.mpr ?_)
  · exact fun kv hkv => hnames _ (List.mem_map_of_mem hkv)
  · exact fun kv _ => .string (short_providerStatus kv.2)

theorem legible_snapshotToJson {s : Snapshot F} (hint : AtMost (2 ^ 53) s.integers)
    (hnumbers : ∀ x ∈ s.numbers, Reads x) (htexts : ∀ t ∈ s.texts, Short t) :
    (snapshotToJson s).Legible 6 := by
  simp only [Snapshot.integers, atMost_append, atMost_cons, forall_mem_some] at hint
  obtain ⟨⟨hid, hgen, htime, hpolicy, hcount, hdropped, -⟩, hdomains⟩ := hint
  obtain ⟨hscore, hdomainnumbers⟩ := List.forall_mem_cons.mp hnumbers
  simp only [Snapshot.texts, List.forall_mem_append, List.forall_mem_cons] at htexts
  obtain ⟨⟨⟨⟨hname, hexplanation, -⟩, hwarnings⟩, hproviders⟩, hdomaintexts⟩ := htexts
  have hkeys : ∀ key ∈ (snapshotFields s).map Prod.fst, Short key :=
    show ∀ key ∈ ["schema", "id", "generation", "timestamp_ms", "policy_version", "policy_name",
      "aggregate_level", "aggregate_score", "aggregate_explanation", "stale_data", "partial_data",
      "confidence", "provenance", "warnings", "provider_health", "domains", "events"], Short key
    by decide
  have hdomain : ∀ d ∈ s.domains, (domainStateToJson d).Legible 4 := fun d hd =>
    legible_domainStateToJson (fun x hx => hdomains x (List.mem_flatMap.mpr ⟨d, hd, hx⟩))
      (fun x hx => hdomainnumbers x (List.mem_flatMap.mpr ⟨d, hd, hx⟩))
      fun t ht => hdomaintexts t (List.mem_flatMap.mpr ⟨d, hd, ht⟩)
  have hwarning : ∀ w ∈ s.warnings, (Json.string w : Json String F).Legible 4 :=
    fun w hw => .string (hwarnings w hw)
  have hevents : (Json.record (eventsFields s.events) : Json String F).Legible 5 := by
    refine legible_record (show ∀ key ∈ ["count", "dropped"], Short key by decide) ?_
    have hcount' : s.events.count.toUInt64.toNat ≤ 2 ^ 53 := by simpa using hcount
    have hdropped' : s.events.dropped.toUInt64.toNat ≤ 2 ^ 53 := by simpa using hdropped
    simp [eventsFields, legible_ofUInt64 hcount', legible_ofUInt64 hdropped']
  have hschema : (Json.ofInt64 kSnapshotSchemaVersion : Json String F).Legible 5 :=
    legible_ofInt64 (by decide)
  refine legible_record hkeys ?_
  simp [snapshotFields, hschema, legible_ofNat hid, legible_ofNat hgen, legible_ofUInt64 htime,
    legible_ofUInt64 hpolicy, hname, short_pressureLevel, hscore, hexplanation, short_confidence,
    short_provenance, legible_map hwarning, legible_healthToJson hproviders, legible_map hdomain,
    hevents]

/-! ## Round trip -/

/-- The text of a snapshot (snapshot_serialization.cpp:14). -/
def snapshotToText (s : Snapshot F) : Bytes := (snapshotToJson s).toText

/-- The snapshot of a text (snapshot_serialization.cpp:15). -/
def snapshotOfText (text : Bytes) : Option (Snapshot F) := (Json.ofText text).bind snapshotFromJson

/-- **The text of a snapshot is read back** as the reader has it of its document, exactly
when no id repeats. -/
theorem snapshotOfText_snapshotToText {s : Snapshot F} (hint : AtMost (2 ^ 53) s.integers)
    (hnumbers : ∀ x ∈ s.numbers, Reads x) (htexts : ∀ t ∈ s.texts, Short t)
    (hlen : (snapshotToText s).length ≤ ({} : JsonParseLimits).maxBytes) :
    snapshotOfText (snapshotToText s) = if s.ids.Nodup then some s.reread else none := by
  have hlegible := legible_snapshotToJson hint hnumbers htexts
  rw [snapshotOfText, snapshotToText, hlegible.ofText_toText (by decide) hlen, Option.bind_some,
    snapshotFromJson_snapshotToJson]

/-- **Which published snapshots come back from their text.** After every run, the text
of a published snapshot whose ids are distinct, whose integers are at most `2 ^ 53`,
whose other numbers are read back and whose strings are short, if it is within the parser's
size limit, is read as the snapshot, equal in every field, exactly when it records no
provider as partial. -/
theorem snapshot_text_round_trip (ops : List (Op F)) (pub : Published F)
    (hpub : pub ∈ publishedBy PressureRuntime.init ops) (hids : pub.snapshot.ids.Nodup)
    (hint : AtMost (2 ^ 53) pub.snapshot.integers) (hnumbers : ∀ x ∈ pub.snapshot.numbers, Reads x)
    (htexts : ∀ t ∈ pub.snapshot.texts, Short t)
    (hlen : (snapshotToText pub.snapshot).length ≤ ({} : JsonParseLimits).maxBytes) :
    snapshotOfText (snapshotToText pub.snapshot) = some pub.snapshot ↔
      ∀ name, pub.snapshot.providerHealth.lookup name ≠ some .partialData := by
  rw [snapshotOfText_snapshotToText hint hnumbers htexts hlen, if_pos hids, Option.some_inj,
    Snapshot.reread_eq_iff (writable_published hpub hint)]

/-- A full host under a policy that weighs its utilization alone, polled once. -/
def hostFull : List (Op ℚ) :=
  [.setPolicy { defaultPolicy with
      weights :=
        { utilization := 1, freeDeficit := 0, reserveDeficit := 0, growthRate := 0
          allocationFailure := 0, fragmentation := 0, reclaimableDeficit := 0
          confidencePenalty := 0, stalePenalty := 0 } },
    .registerProvider "host",
    .refresh 1000 [{ name := "host", outcome := .returned { status := .healthy, observations :=
      [{ id := { high := 0, low := 1 }, type := .hostMemory, totalCapacity := 1000,
         committed := 1000 }] } }]]

theorem hostFull_publishes : publishedBy PressureRuntime.init hostFull ≠ [] :=
  List.ne_nil_of_length_pos (by decide +kernel)

/-- The snapshot of `hostFull` comes back from its text. -/
theorem snapshot_text_round_trip_full :
    ∃ pub ∈ publishedBy PressureRuntime.init hostFull,
      snapshotOfText (snapshotToText pub.snapshot) = some pub.snapshot := by
  refine ⟨_, List.head_mem hostFull_publishes, ?_⟩
  refine (snapshot_text_round_trip hostFull _ (List.head_mem _) (by decide +kernel)
    (by decide +kernel) ?_ (by decide +kernel) (by decide +kernel)).mpr ?_
  · have hnumbers : ∀ x ∈ ((publishedBy PressureRuntime.init hostFull).head
        hostFull_publishes).snapshot.numbers, x = 0 ∨ x = 1 := by decide +kernel
    intro x hx
    rcases hnumbers x hx with rfl | rfl
    · exact reads_ofInt (N := ℚ) (n := 0) (by decide)
    · exact reads_ofInt (N := ℚ) (n := 1) (by decide)
  · intro name hname
    have hhealth : ((publishedBy PressureRuntime.init hostFull).head
        hostFull_publishes).snapshot.providerHealth =
          (∅ : Finmap fun _ : String => ProviderStatus).insert "host" .healthy := by decide +kernel
    rw [hhealth] at hname
    by_cases h : name = "host"
    · rw [h, Finmap.lookup_insert] at hname
      cases hname
    · rw [Finmap.lookup_insert_of_ne _ h] at hname
      cases hname

end MemoryPressure
