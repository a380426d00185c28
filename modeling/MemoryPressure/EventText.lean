import MemoryPressure.Codec
import MemoryPressure.Events
import MemoryPressure.SnapshotText

/-!
# Events as lines of text (`serialize.cpp`, `cli/main.cpp`)

`events --json` prints the document of each event on a line of its own. Nothing reads
them back, so the question is what a line gives away.

- `visible_serializeTo`: a text holds no control byte, so a document is one line.
- `toText_injective`: a text belongs to one legible document.
- `eventToJson_injective`: a document belongs to one event.
- `printed_events_determined`: so what is printed determines the events and their order.

Each step is injective for a reason of its own. Lines are told apart by what ends them
(`terminated_injective`), provided no document holds a line end, and the printer escapes
every control byte. Texts are told apart by the parser, with its size limit out of the
way: a legible document is what its text is parsed as. Documents are told apart by their
fields; the id of a domain and the type of an event are written as spellings, which are
distinct (`eventType_toString_injective`).

Integers pass through `double`, so that two timestamps beyond `2 ^ 53` may print the same.
That is why the events are asked to be legible: their integers at most `2 ^ 53`, their
details within the length of a string the parser takes.

`printLoop` is the loop of the command, with its number of turns; it pops until the queue
is empty, and `printLoop_eq` says that it has printed all of it by then.
-/

namespace MemoryPressure

open Json JsonText

/-! ## Lines -/

/-- The texts of a list of items, each ended by `stop`. -/
def terminated {α β : Type} (stop : α) (text : β → List α) (items : List β) : List α :=
  items.flatMap fun item => text item ++ [stop]

/-- What stands before the first `stop` is determined. -/
theorem append_stop_inj {α : Type} {stop : α} {a b s t : List α} (ha : stop ∉ a) (hb : stop ∉ b)
    (h : a ++ stop :: s = b ++ stop :: t) : a = b ∧ s = t := by
  induction a generalizing b with
  | nil =>
    cases b with
    | nil => exact ⟨rfl, List.tail_eq_of_cons_eq h⟩
    | cons y b =>
      obtain rfl := List.head_eq_of_cons_eq h
      exact absurd List.mem_cons_self hb
  | cons x a ih =>
    cases b with
    | nil =>
      obtain rfl := List.head_eq_of_cons_eq h
      exact absurd List.mem_cons_self ha
    | cons y b =>
      obtain ⟨rfl, hrest⟩ := List.cons.inj h
      obtain ⟨rfl, rfl⟩ := ih (fun hm => ha (List.mem_cons_of_mem _ hm))
        (fun hm => hb (List.mem_cons_of_mem _ hm)) hrest
      exact ⟨rfl, rfl⟩

/-- **Terminated texts are told apart**, if none holds what ends it and each belongs to
one item. -/
theorem terminated_injective {α β : Type} {stop : α} {text : β → List α} {p : β → Prop}
    (hstop : ∀ b, p b → stop ∉ text b) (htext : ∀ a b, p a → p b → text a = text b → a = b)
    {as bs : List β} (has : ∀ a ∈ as, p a) (hbs : ∀ b ∈ bs, p b)
    (h : terminated stop text as = terminated stop text bs) : as = bs := by
  induction as generalizing bs with
  | nil =>
    cases bs with
    | nil => rfl
    | cons b bs => exact absurd (congrArg List.length h) (by simp [terminated])
  | cons a as ih =>
    cases bs with
    | nil => exact absurd (congrArg List.length h) (by simp [terminated])
    | cons b bs =>
      obtain ⟨ha, has'⟩ := List.forall_mem_cons.mp has
      obtain ⟨hb, hbs'⟩ := List.forall_mem_cons.mp hbs
      simp only [terminated, List.flatMap_cons, List.append_assoc, List.singleton_append] at h
      obtain ⟨hfirst, hrest⟩ := append_stop_inj (hstop a ha) (hstop b hb) h
      rw [htext a b ha hb hfirst, ih has' hbs' hrest]

/-! ## Printed bytes -/

/-- A byte that is no control byte. -/
def Visible (c : UInt8) : Prop := 0x20 ≤ c

instance decidableVisible (c : UInt8) : Decidable (Visible c) := inferInstanceAs (Decidable (_ ≤ _))

theorem visible_of_isDigit {c : UInt8} (hc : isDigit c = true) : Visible c := by
  have hlow : (0x30 : UInt8) ≤ c := by
    rw [isDigit, Bool.and_eq_true, decide_eq_true_eq] at hc
    exact hc.1
  exact le_trans (by decide) hlow

theorem visible_hexDigitText {d : Nat} (hd : d < 16) : Visible (hexDigitText d) := by
  interval_cases d <;> decide

/-- A control byte is escaped. -/
theorem visible_serializeByte (c : UInt8) : ∀ x ∈ serializeByte c, Visible x := by
  have hescape : ∀ x ∈ appendJsonEscape c, Visible x := by
    have hlt := c.toNat_lt
    rw [appendJsonEscape]
    split_ifs
    iterate 7 decide +kernel
    simp only [List.forall_mem_cons]
    exact ⟨by decide, by decide, by decide, by decide, visible_hexDigitText (by omega),
      visible_hexDigitText (by omega), fun _ hx => absurd hx List.not_mem_nil⟩
  rw [serializeByte]
  split_ifs with hlow hquote
  · exact hescape
  · exact hescape
  · exact List.forall_mem_singleton.mpr (not_lt.mp hlow)

theorem visible_serializeString (s : Bytes) : ∀ x ∈ serializeString s, Visible x := by
  refine List.forall_mem_cons.mpr ⟨by decide, List.forall_mem_append.mpr ⟨?_, ?_⟩⟩
  · exact List.forall_mem_flatMap.mpr fun c _ => visible_serializeByte c
  · exact List.forall_mem_singleton.mpr (by decide)

section

variable {N : Type} [DecimalDouble N] {m : Nat}

theorem visible_separator (first : Bool) :
    ∀ x ∈ (if first then [] else [comma] : Bytes), Visible x := by
  cases first with
  | true => exact fun _ hx => absurd hx List.not_mem_nil
  | false => exact List.forall_mem_singleton.mpr (by decide)

mutual

/-- **A text holds no control byte.** -/
theorem visible_serializeTo : ∀ v : Json Bytes N, v.Printable m → ∀ x ∈ (serializeTo v).1, Visible x
  | .null, _ => show ∀ x ∈ litNull, Visible x by decide +kernel
  | .bool true, _ => show ∀ x ∈ litTrue, Visible x by decide +kernel
  | .bool false, _ => show ∀ x ∈ litFalse, Visible x by decide +kernel
  | .number d, h => by
    cases h with
    | number hreads =>
      obtain ⟨token, hwf, htext, -⟩ := hreads
      rw [serializeTo, htext]
      exact hwf.forall_mem_text (fun _ hc => visible_of_isDigit hc) (by decide +kernel)
  | .string s, _ => visible_serializeString s
  | .array items, h => by
    cases h with
    | array h =>
      exact List.forall_mem_cons.mpr ⟨by decide, List.forall_mem_append.mpr
        ⟨visible_serializeItems true items h, List.forall_mem_singleton.mpr (by decide)⟩⟩
  | .object fields, h => by
    cases h with
    | object _ h =>
      exact List.forall_mem_cons.mpr ⟨by decide, List.forall_mem_append.mpr
        ⟨visible_serializeFields true fields h, List.forall_mem_singleton.mpr (by decide)⟩⟩

theorem visible_serializeItems (first : Bool) : ∀ vs : List (Json Bytes N),
    (∀ v ∈ vs, v.Printable m) → ∀ x ∈ (serializeItems first vs).1, Visible x
  | [], _ => fun _ hx => absurd hx List.not_mem_nil
  | v :: vs, h => by
    obtain ⟨hv, hvs⟩ := List.forall_mem_cons.mp h
    rw [serializeItems]
    simp only [List.forall_mem_append]
    exact ⟨⟨visible_separator first, visible_serializeTo v hv⟩, visible_serializeItems false vs hvs⟩

theorem visible_serializeFields (first : Bool) : ∀ kvs : List (Bytes × Json Bytes N),
    (∀ kv ∈ kvs, kv.2.Printable m) → ∀ x ∈ (serializeFields first kvs).1, Visible x
  | [], _ => fun _ hx => absurd hx List.not_mem_nil
  | (k, v) :: kvs, h => by
    obtain ⟨hv, hkvs⟩ := List.forall_mem_cons.mp h
    rw [serializeFields]
    simp only [List.forall_mem_append]
    exact ⟨⟨⟨⟨visible_separator first, visible_serializeString k⟩,
      List.forall_mem_singleton.mpr (by decide)⟩, visible_serializeTo v hv⟩,
      visible_serializeFields false kvs hkvs⟩

end

end

/-! ## One text, one document -/

/-- A document is written on one line. -/
theorem visible_toText {N : Type} [DecimalDouble N] {n : Nat} {v : Json String N}
    (h : v.Legible n) : ∀ c ∈ v.toText, Visible c := by
  obtain ⟨hord, hprint, -⟩ := h.bytes
  rw [toText, jsonDump_of_printable hord hprint]
  exact visible_serializeTo _ hprint

/-- **A text belongs to one legible document**, whatever its size. -/
theorem toText_injective {N : Type} [DecimalDouble N] [ReadsDecimals N] {n n' : Nat}
    {v v' : Json String N} (hv : v.Legible n) (hv' : v'.Legible n') (h : v.toText = v'.toText) :
    v = v' := by
  -- the parser with limits that admit both
  have hparse : ∀ {n : Nat} {v : Json String N}, v.Legible n → ∀ depth > n,
      jsonParse v.toText { maxDepth := depth, maxBytes := v.toText.length } =
        some (v.mapStrings bytesOf) := by
    intro n v hv depth hdepth
    obtain ⟨hord, hprint, hnest⟩ := hv.bytes
    have hlimits : v.toText.length ≤
        ({ maxDepth := depth, maxBytes := v.toText.length } : JsonParseLimits).maxBytes := le_rfl
    exact jsonParse_jsonDump hord hprint (hnest.trans_lt hdepth) hlimits
  have hbytes : v.mapStrings bytesOf = v'.mapStrings bytesOf := by
    have h₁ := hparse hv (n + n' + 1) (by omega)
    have h₂ := hparse hv' (n + n' + 1) (by omega)
    rw [h] at h₁
    exact Option.some.inj (h₁.symm.trans h₂)
  have hback := congrArg (mapStrings textOf) hbytes
  rwa [mapStrings_mapStrings textOf_bytesOf hv.ordered,
    mapStrings_mapStrings textOf_bytesOf hv'.ordered] at hback

/-! ## Events -/

/-- `to_string` of an event type (events.h:22). -/
def PressureEventType.toString : PressureEventType → String
  | .domainAdded => "DOMAIN_ADDED"
  | .domainRemoved => "DOMAIN_REMOVED"
  | .pressureEntered => "PRESSURE_ENTERED"
  | .pressureEscalated => "PRESSURE_ESCALATED"
  | .pressureRelieved => "PRESSURE_RELIEVED"
  | .pressureRecovered => "PRESSURE_RECOVERED"
  | .budgetChanged => "BUDGET_CHANGED"
  | .reserveChanged => "RESERVE_CHANGED"
  | .providerStale => "PROVIDER_STALE"
  | .providerFailed => "PROVIDER_FAILED"
  | .providerRecovered => "PROVIDER_RECOVERED"
  | .backpressureIssued => "BACKPRESSURE_ISSUED"
  | .reclaimRequested => "RECLAIM_REQUESTED"
  | .demotionRequested => "DEMOTION_REQUESTED"
  | .policyChanged => "POLICY_CHANGED"
  | .generationChanged => "GENERATION_CHANGED"
  | .custom => "CUSTOM"

/-- The enumerators of `PressureEventType`. -/
def eventTypes : List PressureEventType :=
  [.domainAdded, .domainRemoved, .pressureEntered, .pressureEscalated, .pressureRelieved,
   .pressureRecovered, .budgetChanged, .reserveChanged, .providerStale, .providerFailed,
   .providerRecovered, .backpressureIssued, .reclaimRequested, .demotionRequested,
   .policyChanged, .generationChanged, .custom]

theorem mem_eventTypes (t : PressureEventType) : t ∈ eventTypes := by cases t <;> decide

/-- No two event types are spelled alike. -/
theorem eventType_toString_injective : Function.Injective PressureEventType.toString :=
  fun a b h => List.inj_on_of_nodup_map (show (eventTypes.map PressureEventType.toString).Nodup
    by decide) (mem_eventTypes a) (mem_eventTypes b) h

theorem short_eventType (t : PressureEventType) : Short t.toString := by cases t <;> decide

/-- `kEventSchemaVersion` (serialize.h:27). -/
def kEventSchemaVersion : Int64 := 1

/-- The fields `event_to_json` writes. -/
def eventFields {F : Type} [JsonDouble F] (e : PressureEvent) :
    List (String × Option (Json String F)) :=
  [("schema", some (.ofInt64 kEventSchemaVersion)),
   ("id", some (.ofUInt64 (UInt64.ofNat e.id))),
   ("type", some (.string e.type.toString)),
   ("generation", some (.ofUInt64 (UInt64.ofNat e.generation))),
   ("timestamp_ms", some (.ofUInt64 e.timestampMs)),
   ("domain", e.domain.map fun d => .string d.toHex),
   ("detail", some (.string e.detail)),
   ("severity_rank", some (.ofUInt64 (UInt64.ofNat e.severityRank)))]

/-- `event_to_json` (serialize.cpp:474). -/
def eventToJson {F : Type} [JsonDouble F] (e : PressureEvent) : Json String F :=
  .record (eventFields e)

/-- The integer fields of an event. -/
def PressureEvent.integers (e : PressureEvent) : List (Option Nat) :=
  [some e.id, some e.generation, some e.timestampMs.toNat, some e.severityRank]

theorem legible_eventToJson {F : Type} [DecimalDouble F] [ReadsIntegers F] {e : PressureEvent}
    (hint : AtMost (2 ^ 53) e.integers) (hdetail : Short e.detail) :
    (eventToJson e : Json String F).Legible 1 := by
  simp only [PressureEvent.integers, atMost_cons, forall_mem_some] at hint
  obtain ⟨hid, hgeneration, htime, hrank, -⟩ := hint
  have hschema : (Json.ofInt64 kEventSchemaVersion : Json String F).Legible 0 :=
    legible_ofInt64 (by decide)
  have hdomain : ∀ d, e.domain = some d → Short d.toHex := fun d _ => short_toHex d
  refine legible_record (show ∀ key ∈ ["schema", "id", "type", "generation", "timestamp_ms",
    "domain", "detail", "severity_rank"], Short key by decide) ?_
  simpa [eventFields, hschema, legible_ofNat hid, short_eventType, legible_ofNat hgeneration,
    legible_ofUInt64 htime, hdetail, legible_ofNat hrank] using hdomain

/-- **A document belongs to one event.** -/
theorem eventToJson_injective {F : Type} [JsonDouble F] [ExactIntegers F] {e e' : PressureEvent}
    (hint : AtMost (2 ^ 53) e.integers) (hint' : AtMost (2 ^ 53) e'.integers)
    (h : (eventToJson e : Json String F) = eventToJson e') : e = e' := by
  have hkeys : ∀ e : PressureEvent,
      ((eventFields e : List (String × Option (Json String F))).map Prod.fst).Nodup := fun _ =>
    show ["schema", "id", "type", "generation", "timestamp_ms", "domain", "detail",
      "severity_rank"].Nodup by decide
  -- a field of one is the same field of the other
  have hfield : ∀ (i : Nat) (key : String) (v v' : Option (Json String F)),
      (eventFields e)[i]? = some (key, v) → (eventFields e')[i]? = some (key, v') → v = v' := by
    intro i key v v' hv hv'
    rw [← Json.find_record_at (hkeys e) i key v hv, ← Json.find_record_at (hkeys e') i key v' hv']
    exact congrArg (Json.find · key) h
  have hnat : ∀ {n n' : Nat}, n ≤ 2 ^ 53 → n' ≤ 2 ^ 53 →
      some (Json.ofUInt64 (UInt64.ofNat n) : Json String F) = some (.ofUInt64 (UInt64.ofNat n')) →
      n = n' := by
    intro n n' hn hn' heq
    have hkept := congrArg (fun j : Json String F => (j.asUInt64.getD 0).toNat)
      (Option.some.inj heq)
    exact (toNat_kept_ofNat (F := F) hn).symm.trans (hkept.trans (toNat_kept_ofNat hn'))
  simp only [PressureEvent.integers, atMost_cons, forall_mem_some] at hint hint'
  obtain ⟨hid, hgeneration, htime, hrank, -⟩ := hint
  obtain ⟨hid', hgeneration', htime', hrank', -⟩ := hint'
  have htype : e.type = e'.type := by
    have heq := hfield 2 "type" _ _ rfl rfl
    exact eventType_toString_injective (Json.string.inj (Option.some.inj heq))
  have hdomain : e.domain = e'.domain := by
    have heq := hfield 5 "domain" _ _ rfl rfl
    refine Option.map_injective
      (f := fun d : PressureDomainId => (Json.string d.toHex : Json String F))
      ?_ heq
    intro d d' hd
    have hhex := congrArg PressureDomainId.fromHex (Json.string.inj hd)
    rwa [fromHex_toHex, fromHex_toHex, Option.some_inj] at hhex
  have hdetail : e.detail = e'.detail :=
    Json.string.inj (Option.some.inj (hfield 6 "detail" _ _ rfl rfl))
  have hstamp : e.timestampMs = e'.timestampMs := by
    have heq := congrArg (fun v => v.bind Json.asUInt64) (hfield 4 "timestamp_ms" _ _ rfl rfl)
    exact Option.some.inj ((stored_of_le htime).symm.trans (heq.trans (stored_of_le htime')))
  have hids := hnat hid hid' (hfield 1 "id" _ _ rfl rfl)
  have hgenerations := hnat hgeneration hgeneration' (hfield 3 "generation" _ _ rfl rfl)
  have hranks := hnat hrank hrank' (hfield 7 "severity_rank" _ _ rfl rfl)
  cases e
  cases e'
  simp only at htype hdomain hdetail hstamp hids hgenerations hranks
  subst htype hdomain hdetail hstamp hids hgenerations hranks
  rfl

/-! ## The command -/

variable {F C : Type} [DecimalDouble F]

/-- The loop of `events --json` (main.cpp:278), with the turns it may take. -/
def printLoop (F : Type) [DecimalDouble F] : Nat → Subscription C → Bytes
  | 0, _ => []
  | n + 1, sub =>
    match sub.tryPop with
    | (_, none) => []
    | (sub', some e) => ((eventToJson e : Json String F).toText ++ [0x0A]) ++ printLoop F n sub'

/-- What `events --json` prints before its count: a turn for every event that waits. -/
def printEvents (F : Type) [DecimalDouble F] (sub : Subscription C) : Bytes :=
  printLoop F sub.queue.length sub

/-- The loop prints the queue and stops, however many turns are left. -/
theorem printLoop_eq {n : Nat} {sub : Subscription C} (hn : sub.queue.length ≤ n) :
    printLoop F n sub =
      terminated 0x0A (fun e => (eventToJson e : Json String F).toText) sub.queue := by
  induction n generalizing sub with
  | zero =>
    rw [List.length_eq_zero_iff.mp (Nat.le_zero.mp hn)]
    rfl
  | succ n ih =>
    rw [printLoop, Subscription.tryPop]
    cases hqueue : sub.queue with
    | nil => rfl
    | cons e rest =>
      rw [hqueue, List.length_cons] at hn
      have hrest : printLoop F n { sub with queue := rest } = terminated 0x0A _ rest :=
        ih (Nat.le_of_succ_le_succ hn)
      simp only [hrest, terminated, List.flatMap_cons]

/-- An event whose document is legible. -/
structure PressureEvent.Legible (e : PressureEvent) : Prop where
  integers : AtMost (2 ^ 53) e.integers
  detail : Short e.detail

/-- **What is printed determines the events.** Let the integers of the events that wait in
two subscriptions be at most `2 ^ 53`, and their details short. If `events --json` prints
the same bytes of both, the same events wait in both, in the same order, whatever their
details hold: quotes, braces and line ends too. -/
theorem printed_events_determined [ReadsIntegers F] {sub sub' : Subscription C}
    (hsub : ∀ e ∈ sub.queue, e.Legible) (hsub' : ∀ e ∈ sub'.queue, e.Legible)
    (h : printEvents F sub = printEvents F sub') : sub.queue = sub'.queue := by
  rw [printEvents, printEvents, printLoop_eq le_rfl, printLoop_eq le_rfl] at h
  refine terminated_injective (p := PressureEvent.Legible) ?_ ?_ hsub hsub' h
  · intro e he hmem
    have hvisible := visible_toText (legible_eventToJson (F := F) he.integers he.detail)
    exact absurd (hvisible _ hmem) (by decide)
  · intro e e' he he' htext
    exact eventToJson_injective he.integers he'.integers
      (toText_injective (legible_eventToJson he.integers he.detail)
        (legible_eventToJson he'.integers he'.detail) htext)

/-- A detail that holds a quote and a line end. -/
def oddEvent (detail : String) : PressureEvent :=
  { id := 1, type := .domainAdded, domain := some { high := 0, low := 1 }, detail := detail }

theorem printed_events_determined_odd :
    printEvents ℚ ({ queue := [oddEvent "a\"\n", oddEvent "b"] } : Subscription Unit) ≠
      printEvents ℚ ({ queue := [oddEvent "a\"\nb"] } : Subscription Unit) := by
  have hlegible : ∀ detail, Short detail → (oddEvent detail).Legible :=
    fun detail hdetail => ⟨(by decide : AtMost (2 ^ 53) (oddEvent "").integers), hdetail⟩
  intro h
  have hsame := printed_events_determined (C := Unit)
    (List.forall_mem_cons.mpr ⟨hlegible _ (by decide), List.forall_mem_singleton.mpr
      (hlegible _ (by decide))⟩)
    (List.forall_mem_singleton.mpr (hlegible _ (by decide))) h
  exact absurd (congrArg List.length hsame) (by decide)

end MemoryPressure
