import MemoryPressure.Lossless
import MemoryPressure.SnapshotText
import MemoryPressure.TraceCodec

/-!
# Traces as texts (`trace.h`, `serialize.cpp`)

A recorded trace outlives its process as the text of its document. A replay uses a
frame's timestamp and observations, and passes over the provider statuses, the one
thing a text does not keep.

- `legible_traceToJson`: what `trace_to_json` writes is legible.
- `TraceFrame.reread_eq`: a frame is read back but for the statuses that are partial.
- `trace_text_replay`: so the trace that is read from the text of a trace replays as it.

With `replay_iff` this closes the path from a run to its replay by another process: what is
recorded, written, read and replayed publishes the original levels exactly when the run
retained nothing. Each integer of the trace has to be at most `2 ^ 53`, the growth rates
have to be read back from their texts and the strings to be short; an observation that is
refused would refuse the trace as a whole, not only itself.
-/

namespace MemoryPressure

open Json JsonText

/-! ## Fields -/

section

variable {F : Type} [Double F]

/-- The texts of an observation that are no spellings. -/
def DomainObservation.texts (o : DomainObservation F) : List String :=
  [o.provider, o.nativeResourceId, o.detail]

/-- The unsigned integer fields of a frame and its observations. -/
def TraceFrame.integers (f : TraceFrame F) : List (Option Nat) :=
  some f.timestampMs.toNat :: f.observations.flatMap DomainObservation.integers

def TraceFrame.numbers (f : TraceFrame F) : List F :=
  f.observations.map DomainObservation.growthBytesPerS

def TraceFrame.texts (f : TraceFrame F) : List String :=
  (SortedMap.entriesOf f.providerHealth).map Prod.fst
    ++ f.observations.flatMap DomainObservation.texts

/-- The unsigned integer fields of a trace and its frames. -/
def PressureTrace.integers (t : PressureTrace F) : List (Option Nat) :=
  some t.policyVersion.toNat :: t.frames.flatMap TraceFrame.integers

def PressureTrace.numbers (t : PressureTrace F) : List F := t.frames.flatMap TraceFrame.numbers

def PressureTrace.texts (t : PressureTrace F) : List String := t.frames.flatMap TraceFrame.texts

end

variable {F : Type} [DecimalDouble F] [ReadsIntegers F] {n : Nat}

/-! ## Legible documents -/

theorem legible_observationToJson {o : DomainObservation F} (hint : AtMost (2 ^ 53) o.integers)
    (hgrowth : Reads o.growthBytesPerS) (htexts : ∀ t ∈ o.texts, Short t) :
    (observationToJson o).Legible (n + 1) := by
  simp only [DomainObservation.integers, atMost_cons, forall_mem_some] at hint
  obtain ⟨htotal, hcommitted, hresident, hunavailable, havailable, htime, hreclaimable, husable,
    hreserved, -⟩ := hint
  simp only [DomainObservation.texts, List.forall_mem_cons] at htexts
  obtain ⟨hprovider, hnative, hdetail, -⟩ := htexts
  have hoptional : ∀ {field : Option UInt64}, (∀ k ∈ field.map UInt64.toNat, k ≤ 2 ^ 53) →
      ∀ k, field = some k → (Json.ofUInt64 k : Json String F).Legible n :=
    fun hfield k hk => legible_ofUInt64 (hfield _ (Option.mem_map_of_mem _ hk))
  have hfailures : (Json.ofInt64 o.allocationFailures.toInt64 : Json String F).Legible n := by
    have hlow := o.allocationFailures.le_toInt
    have hhigh := o.allocationFailures.toInt_lt
    exact legible_ofInt64 (by rw [Int32.toInt_toInt64]; omega)
  refine legible_record (show ∀ key ∈ ["id", "type", "provider", "native_resource_id",
    "total_capacity", "committed", "resident", "reclaimable", "unavailable", "available",
    "usable_capacity", "reserved", "confidence", "provenance", "validity", "observed_at_ms",
    "allocation_failures", "growth_bytes_per_s", "detail"], Short key by decide) ?_
  simp [observationFields, short_toHex, short_domainType, hprovider, hnative, hdetail,
    legible_ofUInt64 htotal, legible_ofUInt64 hcommitted, legible_ofUInt64 hresident,
    legible_ofUInt64 hunavailable, legible_ofUInt64 havailable, legible_ofUInt64 htime,
    short_confidence, short_provenance, short_validity, hfailures, hgrowth]
  exact ⟨hoptional hreclaimable, hoptional husable, hoptional hreserved⟩

theorem legible_frame {f : TraceFrame F} (hint : AtMost (2 ^ 53) f.integers)
    (hnumbers : ∀ x ∈ f.numbers, Reads x) (htexts : ∀ t ∈ f.texts, Short t) :
    (Json.record (frameFields f)).Legible (n + 3) := by
  obtain ⟨htime, hobservations⟩ := atMost_cons.mp hint
  obtain ⟨hproviders, hobservationtexts⟩ := List.forall_mem_append.mp htexts
  have hobservation : ∀ o ∈ f.observations, (observationToJson o).Legible (n + 1) := fun o ho =>
    legible_observationToJson (fun x hx => hobservations x (List.mem_flatMap.mpr ⟨o, ho, hx⟩))
      (hnumbers _ (List.mem_map_of_mem ho))
      fun t ht => hobservationtexts t (List.mem_flatMap.mpr ⟨o, ho, ht⟩)
  refine legible_record (show ∀ key ∈ ["timestamp_ms", "observations", "provider_health"], Short key
    by decide) ?_
  simp [frameFields, legible_ofUInt64 (forall_mem_some.mp htime), legible_map hobservation,
    legible_healthToJson hproviders]

theorem legible_traceToJson {t : PressureTrace F} (hint : AtMost (2 ^ 53) t.integers)
    (hnumbers : ∀ x ∈ t.numbers, Reads x) (htexts : ∀ s ∈ t.texts, Short s) :
    (traceToJson t).Legible 5 := by
  obtain ⟨hversion, hframes⟩ := atMost_cons.mp hint
  have hframe : ∀ f ∈ t.frames, (Json.record (frameFields f)).Legible 3 := fun f hf =>
    legible_frame (fun x hx => hframes x (List.mem_flatMap.mpr ⟨f, hf, hx⟩))
      (fun x hx => hnumbers x (List.mem_flatMap.mpr ⟨f, hf, hx⟩))
      fun s hs => htexts s (List.mem_flatMap.mpr ⟨f, hf, hs⟩)
  have hschema : (Json.ofInt64 kTraceSchemaVersion : Json String F).Legible 4 :=
    legible_ofInt64 (by decide)
  refine legible_record (show ∀ key ∈ ["schema", "policy_version", "frames"], Short key
    by decide) ?_
  simp [traceFields, hschema, legible_ofUInt64 (forall_mem_some.mp hversion), legible_map hframe]

/-! ## What comes back -/

theorem DomainObservation.reread_eq {F : Type} [JsonDouble F] [ExactIntegers F]
    {o : DomainObservation F} (hint : AtMost (2 ^ 53) o.integers) : o.reread = some o := by
  simp only [DomainObservation.integers, atMost_cons, forall_mem_some] at hint
  obtain ⟨htotal, hcommitted, hresident, hunavailable, havailable, htime, hreclaimable, husable,
    hreserved, -⟩ := hint
  have hoptional : ∀ {field : Option UInt64}, (∀ k ∈ field.map UInt64.toNat, k ≤ 2 ^ 53) →
      field.mapM (stored F) = some field := by
    intro field hfield
    cases field with
    | none => rfl
    | some k => rw [Option.mapM_some, stored_of_le (hfield _ rfl)]; rfl
  rw [DomainObservation.reread, stored_of_le htotal, stored_of_le hcommitted,
    stored_of_le hresident, stored_of_le hunavailable, stored_of_le havailable, stored_of_le htime,
    hoptional hreclaimable, hoptional husable, hoptional hreserved]
  rfl

/-- What is left of a frame when it is read back. -/
def TraceFrame.withoutPartial {F : Type} [Double F] (f : TraceFrame F) : TraceFrame F :=
  { f with providerHealth := Keyed.mapVal ProviderStatus.reread f.providerHealth }

/-- **A frame is read back** but for the statuses that are partial. -/
theorem TraceFrame.reread_eq {F : Type} [JsonDouble F] [ExactIntegers F] {f : TraceFrame F}
    (hint : AtMost (2 ^ 53) f.integers) : f.reread = some f.withoutPartial := by
  obtain ⟨htime, hobservations⟩ := atMost_cons.mp hint
  have hall : f.observations.mapM DomainObservation.reread = some f.observations := by
    refine mapM_eq_some_iff.mpr (List.forall₂_same.mpr ?_)
    intro o ho
    exact DomainObservation.reread_eq fun x hx =>
      hobservations x (List.mem_flatMap.mpr ⟨o, ho, hx⟩)
  rw [TraceFrame.reread, hall, kept_of_le (forall_mem_some.mp htime)]
  rfl

theorem traceFromJson_of_atMost {F : Type} [JsonDouble F] [ExactIntegers F] {t : PressureTrace F}
    (hint : AtMost (2 ^ 53) t.integers) : traceFromJson (traceToJson t) =
      some { t with frames := t.frames.map TraceFrame.withoutPartial } := by
  obtain ⟨hversion, hframes⟩ := atMost_cons.mp hint
  have hall : t.frames.mapM TraceFrame.reread = some (t.frames.map TraceFrame.withoutPartial) := by
    refine mapM_eq_some_iff.mpr (List.forall₂_map_right_iff.mpr (List.forall₂_same.mpr ?_))
    intro f hf
    exact TraceFrame.reread_eq fun x hx => hframes x (List.mem_flatMap.mpr ⟨f, hf, hx⟩)
  rw [traceFromJson_traceToJson, hall, stored_of_le (forall_mem_some.mp hversion)]
  rfl

/-! ## Replay -/

/-- The text of a trace. -/
def traceToText (t : PressureTrace F) : Bytes := (traceToJson t).toText

/-- The trace of a text. -/
def traceOfText (text : Bytes) : Option (PressureTrace F) :=
  (Json.ofText text).bind traceFromJson

/-- A replay passes over the statuses. -/
theorem replay_withoutPartial {F : Type} [Double F] (t : PressureTrace F) :
    replay { t with frames := t.frames.map TraceFrame.withoutPartial } = replay t := by
  have hframes : ∀ t : PressureTrace F, replay t =
      .registerProvider TraceProvider.name :: t.frames.map replayFrame :=
    fun t => congrArg _ (replayFrames_eq t [] t.frames rfl)
  rw [hframes, hframes, List.map_map]
  rfl

/-- **A trace replays from its text.** The text of a trace whose integers are at most
`2 ^ 53`, whose growth rates are read back and whose strings are short, if it is within the
parser's size limit, is read as the trace but for the statuses that are partial, and what
is read replays as the same calls in the same order. -/
theorem trace_text_replay (t : PressureTrace F) (hint : AtMost (2 ^ 53) t.integers)
    (hnumbers : ∀ x ∈ t.numbers, Reads x) (htexts : ∀ s ∈ t.texts, Short s)
    (hlen : (traceToText t).length ≤ ({} : JsonParseLimits).maxBytes) :
    ∃ t', traceOfText (traceToText t) = some t' ∧ t'.policyVersion = t.policyVersion ∧
      t'.frames = t.frames.map TraceFrame.withoutPartial ∧ replay t' = replay t := by
  have hlegible := legible_traceToJson hint hnumbers htexts
  refine ⟨{ t with frames := t.frames.map TraceFrame.withoutPartial }, ?_, rfl, rfl,
    replay_withoutPartial t⟩
  rw [traceOfText, traceToText, hlegible.ofText_toText (by decide) hlen, Option.bind_some,
    traceFromJson_of_atMost hint]

/-- The record of a run in which a host fills up and is then gone. -/
theorem trace_text_replay_gone :
    ∃ t', traceOfText (traceToText (record 1 goneRun)) = some t' ∧
      replay t' = replay (record 1 goneRun) := by
  have hnumbers : ∀ x ∈ (record 1 goneRun).numbers, x = 0 := by decide +kernel
  obtain ⟨t', hread, -, -, hreplay⟩ := trace_text_replay (record 1 goneRun) (by decide +kernel)
    (fun x hx => hnumbers x hx ▸ reads_ofInt (N := ℚ) (n := 0) (by decide)) (by decide +kernel)
    (by decide +kernel)
  exact ⟨t', hread, hreplay⟩

end MemoryPressure
