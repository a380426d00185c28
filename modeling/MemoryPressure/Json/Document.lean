import MemoryPressure.Json.Printer
import MemoryPressure.Json.Record

/-!
# Documents as texts

The record writers and readers work on trees of `String`, the serializer and the
parser on trees of bytes. `mapStrings` takes one to the other; its objects are put in
the order of the new keys, as a `std::map` of them would be.

- `mapStrings_mapStrings`: there and back is nothing done, if no two strings become one.
- `Legible`: what a tree must be for its text to be read back, with its nesting. The
  lemmas below the definition build it up as the writers build a document.
- `ofText_toText`: the text of a legible tree is read back as the tree.

This is the seam between the two halves of the serialization. Above it a writer and its
reader are compared as functions on trees, below it the printer and the parser as functions
on bytes, and neither half knows the other. A writer is carried across by showing that what
it writes is legible, which goes record by record (`legible_record`), list by list
(`legible_map`) and leaf by leaf: integers up to `2 ^ 53` are (`legible_ofInt64`), other
numbers and strings are asked for. The size of the text remains a condition of the last
lemma, since the parser refuses a text beyond its limit whatever it holds.
-/

namespace MemoryPressure

open JsonText

namespace Json

/-! ## Other strings -/

section

variable {S T N : Type} [LinearOrder T]

mutual

/-- The tree with other strings in the place of its own. -/
def mapStrings (f : S → T) : Json S N → Json T N
  | .null => .null
  | .bool b => .bool b
  | .number n => .number n
  | .string s => .string (f s)
  | .array items => .array (mapItems f items)
  | .object fields => .ofFields (mapFields f fields)

def mapItems (f : S → T) : List (Json S N) → List (Json T N)
  | [] => []
  | v :: vs => mapStrings f v :: mapItems f vs

def mapFields (f : S → T) : List (S × Json S N) → List (T × Json T N)
  | [] => []
  | (k, v) :: kvs => (f k, mapStrings f v) :: mapFields f kvs

end

theorem mapItems_eq (f : S → T) (vs : List (Json S N)) : mapItems f vs = vs.map (mapStrings f) := by
  induction vs with
  | nil => rfl
  | cons v vs ih => rw [mapItems, ih, List.map_cons]

theorem mapFields_eq (f : S → T) (kvs : List (S × Json S N)) :
    mapFields f kvs = kvs.map fun kv => (f kv.1, mapStrings f kv.2) := by
  induction kvs with
  | nil => rfl
  | cons kv kvs ih => rw [mapFields, ih, List.map_cons]

theorem mapStrings_array (f : S → T) (items : List (Json S N)) :
    (array items).mapStrings f = array (items.map (mapStrings f)) := by
  rw [mapStrings, mapItems_eq]

theorem mapStrings_object (f : S → T) (fields : List (S × Json S N)) :
    (object fields).mapStrings f = ofFields (fields.map fun kv => (f kv.1, kv.2.mapStrings f)) := by
  rw [mapStrings, mapFields_eq]

/-- **Strings mapped there and back.** -/
theorem mapStrings_mapStrings [LinearOrder S] {f : S → T} {g : T → S} (hgf : ∀ s, g (f s) = s)
    {v : Json S N} (hv : v.Ordered) : (v.mapStrings f).mapStrings g = v := by
  induction hv with
  | null | bool | number => rfl
  | string s => exact congrArg string (hgf s)
  | @array items _ ih =>
    rw [mapStrings_array, mapStrings_array, List.map_map]
    exact congrArg array ((List.map_congr_left ih).trans (List.map_id _))
  | @object fields hasc _ ih =>
    have hnd : ((fields.map fun kv => (f kv.1, kv.2.mapStrings f)).map Prod.fst).Nodup := by
      have hinj : Function.Injective f := Function.LeftInverse.injective hgf
      have hkeys : (fields.map Prod.fst).Nodup := hasc.imp ne_of_lt
      have h := hkeys.map hinj
      rwa [List.map_map] at h ⊢
    -- what `g` is mapped over is what was written, in the order of the keys of `T`
    have hperm := (SortedMap.perm_ofEntries hnd).map fun kv => (g kv.1, kv.2.mapStrings g)
    have hback : (fields.map fun kv => (f kv.1, kv.2.mapStrings f)).map
        (fun kv => (g kv.1, kv.2.mapStrings g)) = fields := by
      rw [List.map_map]
      refine (List.map_congr_left ?_).trans (List.map_id _)
      intro kv hkv
      exact Prod.ext (hgf kv.1) (ih kv hkv)
    rw [hback] at hperm
    rw [mapStrings_object, ofFields, mapStrings_object]
    exact congrArg object (SortedMap.ofEntries_of_perm hperm hasc)

end

/-! ## Nesting -/

section

variable {S N : Type} {n : Nat}

theorem itemsNesting_le {vs : List (Json S N)} (h : ∀ v ∈ vs, v.nesting ≤ n) :
    itemsNesting vs ≤ n := by
  induction vs with
  | nil => exact Nat.zero_le n
  | cons v vs ih =>
    obtain ⟨hv, hvs⟩ := List.forall_mem_cons.mp h
    exact max_le hv (ih hvs)

theorem fieldsNesting_le {kvs : List (S × Json S N)} (h : ∀ kv ∈ kvs, kv.2.nesting ≤ n) :
    fieldsNesting kvs ≤ n := by
  induction kvs with
  | nil => exact Nat.zero_le n
  | cons kv kvs ih =>
    obtain ⟨hkv, hkvs⟩ := List.forall_mem_cons.mp h
    exact max_le hkv (ih hkvs)

end

/-! ## Legible trees -/

/-- A text the parser reads by default. -/
def Short (s : String) : Prop := s.utf8ByteSize ≤ ({} : JsonParseLimits).maxString

instance decidableShort (s : String) : Decidable (Short s) := inferInstanceAs (Decidable (_ ≤ _))

/-- A tree whose keys ascend, whose numbers are read back from their text and whose
strings and keys are short, with a bound on its nesting. -/
inductive Legible {N : Type} [DecimalDouble N] : Nat → Json String N → Prop
  | null {n : Nat} : Legible n null
  | bool {n : Nat} (b : Bool) : Legible n (bool b)
  | number {n : Nat} {d : N} : Reads d → Legible n (number d)
  | string {n : Nat} {s : String} : Short s → Legible n (string s)
  | array {n : Nat} {items : List (Json String N)} : (∀ v ∈ items, Legible n v) →
      Legible (n + 1) (array items)
  | object {n : Nat} {fields : List (String × Json String N)} : SortedMap.Ascending fields →
      (∀ kv ∈ fields, Short kv.1) → (∀ kv ∈ fields, Legible n kv.2) →
      Legible (n + 1) (object fields)

section

variable {N : Type} [DecimalDouble N] {n : Nat}

theorem Legible.ordered {v : Json String N} (h : v.Legible n) : v.Ordered := by
  induction h with
  | null => exact .null
  | bool b => exact .bool b
  | number => exact .number _
  | string => exact .string _
  | array _ ih => exact .array ih
  | object hasc _ _ ih => exact .object hasc ih

theorem Legible.mono {v : Json String N} (h : v.Legible n) {n' : Nat} (hle : n ≤ n') :
    v.Legible n' := by
  induction h generalizing n' with
  | null => exact .null
  | bool b => exact .bool b
  | number hd => exact .number hd
  | string hs => exact .string hs
  | array _ ih =>
    obtain ⟨k, rfl⟩ := Nat.exists_eq_add_of_le hle
    rw [Nat.add_right_comm]
    exact .array fun v hv => ih v hv (Nat.le_add_right _ k)
  | object hasc hkeys _ ih =>
    obtain ⟨k, rfl⟩ := Nat.exists_eq_add_of_le hle
    rw [Nat.add_right_comm]
    exact .object hasc hkeys fun kv hkv => ih kv hkv (Nat.le_add_right _ k)

theorem legible_ofFields {fields : List (String × Json String N)}
    (hkeys : ∀ kv ∈ fields, Short kv.1) (hvals : ∀ kv ∈ fields, kv.2.Legible n) :
    (ofFields fields).Legible (n + 1) :=
  .object (SortedMap.ascending_ofEntries _)
    (fun kv hkv => hkeys kv (SortedMap.mem_of_mem_ofEntries hkv))
    fun kv hkv => hvals kv (SortedMap.mem_of_mem_ofEntries hkv)

@[simp] theorem legible_null : (null : Json String N).Legible n := .null

@[simp] theorem legible_bool (b : Bool) : (bool b : Json String N).Legible n := .bool b

@[simp] theorem legible_number {d : N} : (number d).Legible n ↔ Reads d := by
  constructor
  · intro h
    cases h with
    | number hd => exact hd
  · exact .number

@[simp] theorem legible_string {s : String} :
    (string s : Json String N).Legible n ↔ Short s := by
  constructor
  · intro h
    cases h with
    | string hs => exact hs
  · exact .string

/-- A record is legible field by field. -/
theorem legible_record {fields : List (String × Option (Json String N))}
    (hkeys : ∀ key ∈ fields.map Prod.fst, Short key)
    (hvals : ∀ kv ∈ fields, ∀ v ∈ kv.2, v.Legible n) : (record fields).Legible (n + 1) := by
  refine legible_ofFields ?_ ?_
  · rintro ⟨key, v⟩ hkv
    exact hkeys key (List.mem_map_of_mem (mem_written.mp hkv))
  · rintro ⟨key, v⟩ hkv
    exact hvals _ (mem_written.mp hkv) v rfl

/-- An array is legible item by item. -/
theorem legible_map {α : Type} {f : α → Json String N} {as : List α}
    (h : ∀ a ∈ as, (f a).Legible n) : (array (as.map f)).Legible (n + 1) :=
  .array (List.forall_mem_map.mpr h)

/-- An integer up to `2 ^ 53` is legible. -/
theorem legible_ofInt64 [ReadsIntegers N] {k : Int64} (hk : k.toInt.natAbs ≤ 2 ^ 53) :
    (ofInt64 k : Json String N).Legible n :=
  .number (reads_ofInt hk)

theorem legible_ofUInt64 [ReadsIntegers N] {k : UInt64} (hk : k.toNat ≤ 2 ^ 53) :
    (ofUInt64 k : Json String N).Legible n := by
  rw [ofUInt64_of_lt (by omega)]
  exact .number (reads_ofInt (by simpa using hk))

end

/-! ## Texts -/

/-- The bytes of a text. -/
def bytesOf (s : String) : Bytes := s.toUTF8.data.toList

/-- The text of bytes. A `std::string` need not be UTF-8; what is not has no `String`
and counts as empty here, which no written document holds. -/
def textOf (b : Bytes) : String := (String.fromUTF8? ⟨b.toArray⟩).getD ""

theorem textOf_bytesOf (s : String) : textOf (bytesOf s) = s := by
  have hvalid : s.toUTF8.IsValidUTF8 := s.isValidUTF8
  rw [textOf, bytesOf, Array.toArray_toList, String.fromUTF8?, dif_pos hvalid]
  rfl

theorem length_bytesOf (s : String) : (bytesOf s).length = s.utf8ByteSize := by
  rw [bytesOf, Array.length_toList]
  rfl

section

variable {N : Type} [DecimalDouble N] {n : Nat}

/-- `json_dump` of a document. -/
def toText (v : Json String N) : Bytes := jsonDump (v.mapStrings bytesOf)

/-- `json_parse` of a document, within the default limits. -/
def ofText (text : Bytes) : Option (Json String N) := (jsonParse text {}).map (mapStrings textOf)

/-- The bytes of a legible tree are a tree the serializer writes whole. -/
theorem Legible.bytes {v : Json String N} (h : v.Legible n) :
    (v.mapStrings bytesOf).Ordered ∧
      (v.mapStrings bytesOf).Printable ({} : JsonParseLimits).maxString ∧
      (v.mapStrings bytesOf).nesting ≤ n := by
  induction h with
  | null => exact ⟨.null, .null, Nat.zero_le _⟩
  | bool b => exact ⟨.bool b, .bool b, Nat.zero_le _⟩
  | number hd => exact ⟨.number _, .number hd, Nat.zero_le _⟩
  | @string _ s hs => exact ⟨.string _, .string ((length_bytesOf s).trans_le hs), Nat.zero_le _⟩
  | @array n items _ ih =>
    rw [mapStrings_array]
    refine ⟨.array ?_, .array ?_, Nat.succ_le_succ (itemsNesting_le ?_)⟩
    · exact List.forall_mem_map.mpr fun v hv => (ih v hv).1
    · exact List.forall_mem_map.mpr fun v hv => (ih v hv).2.1
    · exact List.forall_mem_map.mpr fun v hv => (ih v hv).2.2
  | @object n fields hasc hkeys _ ih =>
    rw [mapStrings_object]
    -- every field of the new object is one of the old, its strings mapped
    have hmem : ∀ {p : Bytes × Json Bytes N → Prop},
        (∀ kv ∈ fields, p (bytesOf kv.1, kv.2.mapStrings bytesOf)) →
        ∀ e ∈ SortedMap.ofEntries (fields.map fun kv => (bytesOf kv.1, kv.2.mapStrings bytesOf)),
          p e :=
      fun h e he => List.forall_mem_map.mpr h e (SortedMap.mem_of_mem_ofEntries he)
    refine ⟨.object (SortedMap.ascending_ofEntries _) (hmem ?_), .object (hmem ?_) (hmem ?_),
      Nat.succ_le_succ (fieldsNesting_le (hmem ?_))⟩
    · exact fun kv hkv => (ih kv hkv).1
    · exact fun kv hkv => (length_bytesOf kv.1).trans_le (hkeys kv hkv)
    · exact fun kv hkv => (ih kv hkv).2.1
    · exact fun kv hkv => (ih kv hkv).2.2

end

end Json

variable {N : Type} [DecimalDouble N]

/-- The dump of a printable tree is its text, and not the `null` of a failure. -/
theorem jsonDump_of_printable {v : Json Bytes N} {m : Nat} (hord : v.Ordered)
    (hprint : v.Printable m) : jsonDump v = (serializeTo v).1 := by
  rw [jsonDump, jsonSerialize, if_pos (serializeTo_printable v hord hprint).1, Option.getD_some]

/-- **The text of a printable tree is read back as the tree**, if it is within the size
limit. -/
theorem jsonParse_jsonDump [ReadsDecimals N] {v : Json Bytes N} {limits : JsonParseLimits}
    (hord : v.Ordered) (hprint : v.Printable limits.maxString) (hnest : v.nesting < limits.maxDepth)
    (hlen : (jsonDump v).length ≤ limits.maxBytes) : jsonParse (jsonDump v) limits = some v := by
  obtain ⟨-, hdenotes⟩ := serializeTo_printable v hord hprint
  rw [jsonDump_of_printable hord hprint] at hlen ⊢
  have htext : TextDenotes limits.maxString (serializeTo v).1 v := by
    have h := TextDenotes.mk Ws.nil hdenotes Ws.nil
    rwa [List.append_nil, List.nil_append] at h
  refine jsonParse_of_denotes hlen htext ((levelNesting_le _).trans ?_)
  rw [containerNesting_printable hprint]
  exact hnest

/-- **A legible document is read back from its text.** -/
theorem Json.Legible.ofText_toText [ReadsDecimals N] {v : Json String N} {n : Nat}
    (h : v.Legible n) (hn : n < ({} : JsonParseLimits).maxDepth)
    (hlen : v.toText.length ≤ ({} : JsonParseLimits).maxBytes) :
    Json.ofText v.toText = some v := by
  obtain ⟨hord, hprint, hnest⟩ := h.bytes
  have hparse : jsonParse v.toText {} = some (v.mapStrings Json.bytesOf) :=
    jsonParse_jsonDump hord hprint (hnest.trans_lt hn) hlen
  rw [Json.ofText, hparse, Option.map_some,
    Json.mapStrings_mapStrings Json.textOf_bytesOf h.ordered]

/-- A rational is read back whose text scans as it. -/
theorem reads_of_scan {d : ℚ}
    (hscan : (JsonDouble.fromChars (serializeNumber d).1 : Option (ℚ × Bytes)) = some (d, []))
    (hflag : (serializeNumber d).2 = true) : Reads d := by
  obtain ⟨⟨token, rest⟩, htoken, hval⟩ := Option.map_eq_some_iff.mp hscan
  obtain ⟨hd, rfl⟩ := Prod.mk.inj hval
  obtain ⟨hwf, htext⟩ := of_scanDecimal htoken
  refine ⟨token, hwf, Prod.ext ?_ hflag, congrArg some hd⟩
  rw [htext, List.append_nil]

end MemoryPressure
