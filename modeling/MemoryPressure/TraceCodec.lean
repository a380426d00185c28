import Mathlib.Data.List.Forall2
import MemoryPressure.ObservationCodec
import MemoryPressure.Replay

/-!
# Traces as documents (`serialize.cpp`)

Writer and reader of a recorded trace. One observation that is refused refuses the
trace; what else is missing of a frame is left at its default.

- `traceFromJson_inv`, `frameFromJson_inv`: what an accepted document holds, frame by
  frame and observation by observation.
- `traceFromJson_traceToJson`: a written trace is read with every observation as its
  own reader has it, or not at all.

A loop that refuses the document is a `mapM` in `Option`. `mapM_eq_some_iff` turns it into
a pointwise relation between the items of the document and what they are read as, and the
two inversion lemmas are that relation for each of the two loops. They are about any
document that is accepted, whoever wrote it, which is what `Narrowing.lean` needs; the last
one is about written documents. A frame's health is read like a snapshot's, a partial
status as an unavailable one.
-/

namespace MemoryPressure

variable {F : Type} [JsonDouble F]

/-- A list is read item by item, or refused with the first item that is. -/
theorem mapM_eq_some_iff {α β : Type} {f : α → Option β} {as : List α} {bs : List β} :
    as.mapM f = some bs ↔ List.Forall₂ (fun a b => f a = some b) as bs := by
  induction as generalizing bs with
  | nil =>
    rw [List.mapM_nil, List.forall₂_nil_left_iff]
    exact Option.some_inj.trans eq_comm
  | cons a as ih =>
    rw [List.mapM_cons, List.forall₂_cons_left_iff]
    constructor
    · intro h
      obtain ⟨b, hb, h⟩ := Option.bind_eq_some_iff.mp h
      obtain ⟨bs', hbs, h⟩ := Option.bind_eq_some_iff.mp h
      exact ⟨b, bs', hb, ih.mp hbs, (Option.some.inj h).symm⟩
    · rintro ⟨b, bs', hb, hbs, rfl⟩
      rw [hb, ih.mpr hbs]
      rfl

/-! ## Frames -/

/-- The fields of one frame (serialize.cpp:515). -/
def frameFields (f : TraceFrame F) : List (String × Option (Json String F)) :=
  [("timestamp_ms", some (.ofUInt64 f.timestampMs)),
   ("observations", some (.array (f.observations.map observationToJson))),
   ("provider_health", some (healthToJson f.providerHealth))]

/-- One turn of the `frames` loop (serialize.cpp:537): an observation that is refused
refuses the document. -/
def frameFromJson (f : Json String F) : Option (TraceFrame F) :=
  (f.readOr "observations" (some []) fun v => v.arrayItems.mapM observationFromJson).map
    fun observations =>
      { timestampMs := f.readUInt64 "timestamp_ms"
        observations := observations
        providerHealth := f.readOr "provider_health" ∅ healthFromJson }

/-- The entries of a frame's `observations`, none if it has no such array. -/
def observationItems (f : Json String F) : List (Json String F) :=
  f.readOr "observations" [] Json.arrayItems

/-- **A frame is read observation by observation.** -/
theorem frameFromJson_inv {f : Json String F} {fr : TraceFrame F}
    (h : frameFromJson f = some fr) :
    List.Forall₂ (fun o ob => observationFromJson o = some ob) (observationItems f)
      fr.observations := by
  obtain ⟨observations, hread, rfl⟩ := Option.map_eq_some_iff.mp h
  rw [observationItems, Json.readOr]
  rw [Json.readOr] at hread
  cases hfind : f.find "observations" with
  | none =>
    rw [hfind] at hread
    obtain rfl := Option.some.inj hread
    exact .nil
  | some v =>
    rw [hfind] at hread
    exact mapM_eq_some_iff.mp hread

/-- What a written frame is read as, if its observations are. -/
def TraceFrame.reread (f : TraceFrame F) : Option (TraceFrame F) :=
  (f.observations.mapM DomainObservation.reread).map fun observations =>
    { timestampMs := kept F f.timestampMs
      observations := observations
      providerHealth := Keyed.mapVal ProviderStatus.reread f.providerHealth }

theorem frameFromJson_record [ExactIntegers F] (f : TraceFrame F) :
    frameFromJson (.record (frameFields f)) = f.reread := by
  have hkeys : ((frameFields f).map Prod.fst).Nodup :=
    show ["timestamp_ms", "observations", "provider_health"].Nodup by decide
  have h := Json.find_record_at hkeys
  have hread : (observationFromJson ∘ observationToJson : DomainObservation F → _) =
      DomainObservation.reread := funext observationFromJson_observationToJson
  rw [frameFromJson, Json.readUInt64_of_find (h 0 _ _ rfl), Json.readOr_of_find (h 1 _ _ rfl),
    Json.readOr_of_find (h 2 _ _ rfl), healthFromJson_healthToJson, Json.arrayItems, List.mapM_map,
    hread]
  rfl

/-! ## Traces -/

/-- `kTraceSchemaVersion` (serialize.h:28). -/
def kTraceSchemaVersion : Int64 := 1

/-- The fields `trace_to_json` writes. -/
def traceFields (t : PressureTrace F) : List (String × Option (Json String F)) :=
  [("schema", some (.ofInt64 kTraceSchemaVersion)),
   ("policy_version", some (.ofUInt64 t.policyVersion)),
   ("frames", some (.array (t.frames.map fun f => .record (frameFields f))))]

/-- `trace_to_json` (serialize.cpp:509). -/
def traceToJson (t : PressureTrace F) : Json String F := .record (traceFields t)

/-- `trace_from_json` (serialize.cpp:529). -/
def traceFromJson (j : Json String F) : Option (PressureTrace F) :=
  if j.isObject = false then none
  else
    match j.find "schema" with
    | none => none
    | some schema =>
      if schema.asInt64.getD (-1) ≠ kTraceSchemaVersion then none
      else
        match j.find "frames" with
        | none => none
        | some frames =>
          if frames.isArray = false then none
          else
            (frames.arrayItems.mapM frameFromJson).map fun frames =>
              { policyVersion := j.readOr "policy_version" 1 fun v => v.asUInt64.getD 1
                frames := frames }

/-- The entries of a trace's `frames`. -/
def frameItems (j : Json String F) : List (Json String F) := j.readOr "frames" [] Json.arrayItems

/-- **A trace is read frame by frame.** -/
theorem traceFromJson_inv {j : Json String F} {t : PressureTrace F}
    (h : traceFromJson j = some t) :
    List.Forall₂ (fun f fr => frameFromJson f = some fr) (frameItems j) t.frames := by
  unfold traceFromJson at h
  split_ifs at h
  cases hschema : j.find "schema" with
  | none => simp [hschema] at h
  | some schema =>
    cases hframes : j.find "frames" with
    | none => simp [hschema, hframes] at h
    | some frames =>
      simp only [hschema, hframes] at h
      split_ifs at h
      obtain ⟨frs, hread, rfl⟩ := Option.map_eq_some_iff.mp h
      rw [frameItems, Json.readOr_of_find hframes]
      exact mapM_eq_some_iff.mp hread

/-- **Reading a written trace.** -/
theorem traceFromJson_traceToJson [ExactIntegers F] (t : PressureTrace F) :
    traceFromJson (traceToJson t) =
      (t.frames.mapM TraceFrame.reread).map fun frames =>
        { policyVersion := (stored F t.policyVersion).getD 1, frames := frames } := by
  have hkeys : ((traceFields t).map Prod.fst).Nodup :=
    show ["schema", "policy_version", "frames"].Nodup by decide
  have h : ∀ (i : Nat) (key : String) (v : Option (Json String F)),
      (traceFields t)[i]? = some (key, v) → (traceToJson t).find key = v :=
    Json.find_record_at hkeys
  have hschema : (Json.ofInt64 kTraceSchemaVersion : Json String F).asInt64 =
      some kTraceSchemaVersion := Json.asInt64_ofInt64 (by decide)
  have hread : (frameFromJson ∘ fun f : TraceFrame F => Json.record (frameFields f)) =
      TraceFrame.reread := funext frameFromJson_record
  rw [traceFromJson, if_neg (by rintro ⟨⟩), h 0 _ _ rfl]
  show (if (Json.ofInt64 kTraceSchemaVersion : Json String F).asInt64.getD (-1) ≠
    kTraceSchemaVersion then none else _) = _
  rw [hschema, if_neg (by simp), h 2 _ _ rfl]
  show ((t.frames.map fun f => Json.record (frameFields f)).mapM frameFromJson).map _ = _
  rw [List.mapM_map, hread]
  simp only [Json.readOr_of_find (h 1 _ _ rfl)]
  rfl

end MemoryPressure
