import Mathlib.Data.Nat.Digits.Lemmas
import MemoryPressure.Json.Accepts

/-!
# The serializer (`json.cpp`)

`serializeTo` is the source's, returning what it appends and the flag it clears
on a number that is not finite.

- `serializeTo_denotes`: the text of a tree of integers is one the grammar
  derives, and denotes the tree; by induction on the tree.
- `nestingFrom_serializeTo`: it nests as deep as the tree does.
- `json_text_round_trip`: so the parser returns the tree, by its completeness.

What the number functions promise of integers is `ReadsIntegers`.

The round trip never runs the parser on a printed text. The printer is compared with the
grammar, as the parser is in `Accepts.lean`, and the two meet there. Each branch of the
printer is a branch of the grammar: a string byte stands for itself or is one of the
escapes (`exists_escape`), an integer's digits are a number token (`intDecimal`), items are
separated by commas and fields by commas and colons. Of equal keys the grammar keeps the
last, and a tree's keys ascend, so that no field is lost.

`Printable` is the general condition, that each number is read back from its own text;
`Integral` is the case in which integers alone occur, and follows from the promise on
integers. Only what is not finite is refused by the printer, which then returns no text.
-/

namespace MemoryPressure

open JsonText

/-! ## Texts of integers -/

namespace JsonText

/-- The decimal digits of a number. -/
def natText (n : Nat) : Bytes :=
  if n = 0 then [zero] else ((Nat.digits 10 n).map fun d => UInt8.ofNat (48 + d)).reverse

/-- `std::to_chars` of a `std::int64_t`. -/
def intText (n : Int) : Bytes := (if n < 0 then [minus] else []) ++ natText n.natAbs

/-- The number token of an integer. -/
def intDecimal (n : Int) : Decimal :=
  { neg := n < 0, int := natText n.natAbs, frac := none, exp := none }

theorem intDecimal_text (n : Int) : (intDecimal n).text = intText n := by
  simp [Decimal.text, intDecimal, intText]

theorem toNat_digit {d : Nat} (hd : d < 10) : (UInt8.ofNat (48 + d)).toNat = 48 + d := by
  rw [UInt8.toNat_ofNat']
  omega

theorem isDigit_ofNat {d : Nat} (hd : d < 10) : isDigit (UInt8.ofNat (48 + d)) = true := by
  simp only [isDigit, Bool.and_eq_true, decide_eq_true_eq, UInt8.le_iff_toNat_le, toNat_digit hd]
  constructor
  · exact Nat.le_add_right 48 d
  · show 48 + d ≤ 57
    omega

theorem natText_digits (n : Nat) : Decimal.Digits (natText n) := by
  rw [natText]
  split_ifs with hn
  · exact ⟨List.cons_ne_nil _ _, by decide +kernel⟩
  · constructor
    · rw [Ne, List.reverse_eq_nil_iff, List.map_eq_nil_iff]
      exact Nat.digits_ne_nil_iff_ne_zero.mpr hn
    · intro c hc
      obtain ⟨d, hd, rfl⟩ := List.mem_map.mp (List.mem_reverse.mp hc)
      exact isDigit_ofNat (Nat.digits_lt_base (by omega) hd)

theorem natText_noLeadingZero (n : Nat) : (natText n).head? = some zero → natText n = [zero] := by
  rw [natText]
  split_ifs with hn
  · exact fun _ => rfl
  · intro h
    have hne := Nat.digits_ne_nil_iff_ne_zero (b := 10).mpr hn
    rw [List.head?_reverse, List.getLast?_map, List.getLast?_eq_getLast_of_ne_nil hne] at h
    have hlt := Nat.digits_lt_base (b := 10) (by omega) (List.getLast_mem hne)
    have hval := congrArg UInt8.toNat (Option.some.inj h)
    rw [toNat_digit hlt] at hval
    have hzero : zero.toNat = 48 := rfl
    exact absurd (by omega) (Nat.getLast_digit_ne_zero 10 hn)

theorem digitsValue_natText (n : Nat) : Decimal.digitsValue (natText n) = n := by
  rw [natText]
  split_ifs with hn
  · rw [hn]
    rfl
  · have hstep : ∀ ds : List Nat, (∀ d ∈ ds, d < 10) →
        (ds.map fun d => UInt8.ofNat (48 + d)).foldr (fun c n => n * 10 + (c.toNat - 48)) 0 =
          Nat.ofDigits 10 ds := by
      intro ds hds
      induction ds with
      | nil => rfl
      | cons d ds ih =>
        rw [List.map_cons, List.foldr_cons, ih fun x hx => hds x (List.mem_cons_of_mem _ hx),
          toNat_digit (hds d List.mem_cons_self), Nat.ofDigits_cons]
        omega
    rw [Decimal.digitsValue, List.foldl_reverse,
      hstep _ fun d hd => Nat.digits_lt_base (by omega) hd,
      Nat.ofDigits_digits]

theorem intDecimal_wellFormed (n : Int) : (intDecimal n).WellFormed where
  int := natText_digits _
  noLeadingZero := natText_noLeadingZero _
  frac := nofun
  exp := nofun

theorem intDecimal_magnitude (n : Int) : (intDecimal n).magnitude = n.natAbs := by
  simp [Decimal.magnitude, intDecimal, Decimal.exponent, digitsValue_natText]

end JsonText

/-- What the number functions promise of integers up to `2 ^ 53`: their tokens
denote the doubles they convert to. -/
class ReadsIntegers (N : Type)
    [DecimalDouble N] : Prop extends ReadsDecimals N, ExactIntegers N where
  ofDecimal_natAbs : ∀ n : Int, n.natAbs ≤ 2 ^ 53 →
    (DecimalDouble.ofDecimal (n < 0) n.natAbs : Option N) = some (Double.ofInt n)

/-! ## The serializer -/

namespace JsonText

/-- A digit of `%x`. -/
def hexDigitText (d : Nat) : UInt8 := UInt8.ofNat (if d < 10 then 48 + d else 87 + d)

/-- `append_json_escape` (json.cpp:39). -/
def appendJsonEscape (c : UInt8) : Bytes :=
  if c = 0x22 then [backslash, 0x22]
  else if c = 0x5C then [backslash, 0x5C]
  else if c = 0x08 then [backslash, 0x62]
  else if c = 0x0C then [backslash, 0x66]
  else if c = 0x0A then [backslash, 0x6E]
  else if c = 0x0D then [backslash, 0x72]
  else if c = 0x09 then [backslash, 0x74]
  else [backslash, letterU, zero, zero, hexDigitText (c.toNat / 16), hexDigitText (c.toNat % 16)]

/-- What `serialize_to` appends for a byte of a string (json.cpp:266–271). -/
def serializeByte (c : UInt8) : Bytes :=
  if c < 0x20 then appendJsonEscape c
  else if c = quote ∨ c = backslash then appendJsonEscape c
  else [c]

/-- The string branch of `serialize_to` (json.cpp:264). -/
def serializeString (s : Bytes) : Bytes := quote :: (s.flatMap serializeByte ++ [quote])

variable {N : Type} [JsonDouble N]

/-- The number branch of `serialize_to` (json.cpp:252). -/
def serializeNumber (d : N) : Bytes × Bool :=
  if Double.isFinite d = false then ([], false)
  else if (JsonDouble.floor d == d) = true ∧ Double.ofInt (-9223372036854775808) ≤ d ∧
      d ≤ Double.ofInt 9223372036854775807 then
    (intText (JsonDouble.toInt64 d).toInt, true)
  else (JsonDouble.toChars d, true)

mutual

/-- `serialize_to` (json.cpp:248). -/
def serializeTo : Json Bytes N → Bytes × Bool
  | .null => (litNull, true)
  | .bool b => (if b then litTrue else litFalse, true)
  | .number d => serializeNumber d
  | .string s => (serializeString s, true)
  | .array items =>
    (openBracket :: ((serializeItems true items).1 ++ [closeBracket]),
        (serializeItems true items).2)
  | .object fields =>
    (openBrace :: ((serializeFields true fields).1 ++ [closeBrace]),
        (serializeFields true fields).2)

/-- The array loop of `serialize_to` (json.cpp:278). -/
def serializeItems (first : Bool) : List (Json Bytes N) → Bytes × Bool
  | [] => ([], true)
  | v :: vs =>
    ((if first then [] else [comma]) ++ (serializeTo v).1 ++ (serializeItems false vs).1,
      (serializeTo v).2 && (serializeItems false vs).2)

/-- The object loop of `serialize_to` (json.cpp:289). -/
def serializeFields (first : Bool) : List (Bytes × Json Bytes N) → Bytes × Bool
  | [] => ([], true)
  | (k, v) :: kvs =>
    ((if first then [] else [comma]) ++ serializeString k ++ [colon] ++ (serializeTo v).1
        ++ (serializeFields false kvs).1,
      (serializeTo v).2 && (serializeFields false kvs).2)

end

end JsonText

/-- `json_serialize` (json.cpp:407). -/
def jsonSerialize {N : Type} [JsonDouble N] (value : Json Bytes N) : Option Bytes :=
  if (serializeTo value).2 then some (serializeTo value).1 else none

/-- `json_dump` (json.cpp:415). -/
def jsonDump {N : Type} [JsonDouble N] (value : Json Bytes N) : Bytes :=
  (jsonSerialize value).getD litNull

/-! ## Strings -/

namespace JsonText

theorem hexDigit_hexDigitText {d : Nat} (hd : d < 16) : HexDigit (hexDigitText d) d := by
  rw [← hexValue_iff]
  interval_cases d <;> rfl

/-- A byte below 0x80 is its own encoding. -/
theorem utf8_toNat {c : UInt8} (hc : c < 0x20) : utf8 c.toNat = [c] := by
  have hlt : c.toNat < 32 := UInt8.lt_iff_toNat_lt.mp hc
  have hv : c.toNat.isValidChar := .inl (by omega)
  rw [← appendUtf8_eq hv, appendUtf8, if_pos (by omega), UInt8.ofNat_toNat]

/-- **An escape denotes the byte it is written for.** -/
theorem exists_escape {c : UInt8} (hc : c < 0x20 ∨ c = quote ∨ c = backslash) :
    ∃ e, Escape e [c] ∧ appendJsonEscape c = backslash :: e := by
  rw [appendJsonEscape]
  split_ifs with h1 h2 h3 h4 h5 h6 h7
  · subst h1
    exact ⟨_, .simple .quote, rfl⟩
  · subst h2
    exact ⟨_, .simple .backslash, rfl⟩
  · subst h3
    exact ⟨_, .simple .backspace, rfl⟩
  · subst h4
    exact ⟨_, .simple .formFeed, rfl⟩
  · subst h5
    exact ⟨_, .simple .lineFeed, rfl⟩
  · subst h6
    exact ⟨_, .simple .carriageReturn, rfl⟩
  · subst h7
    exact ⟨_, .simple .tab, rfl⟩
  · have hlow : c < 0x20 := by
      rcases hc with hc | hc | hc
      · exact hc
      · exact absurd hc h1
      · exact absurd hc h2
    have hlt : c.toNat < 32 := UInt8.lt_iff_toNat_lt.mp hlow
    have hzero : HexDigit zero 0 := hexValue_iff.mp rfl
    have hquad := HexQuad.mk hzero hzero (hexDigit_hexDigitText (d := c.toNat / 16) (by omega))
      (hexDigit_hexDigitText (d := c.toNat % 16) (by omega))
    have hval : ((0 * 16 + 0) * 16 + c.toNat / 16) * 16 + c.toNat % 16 = c.toNat := by omega
    rw [hval] at hquad
    refine ⟨_, ?_, rfl⟩
    rw [← utf8_toNat hlow]
    exact .scalar hquad (by omega)

theorem stringBody_serialize (s : Bytes) : StringBody (s.flatMap serializeByte) s := by
  induction s with
  | nil => exact .nil
  | cons c s ih =>
    rw [List.flatMap_cons]
    by_cases hc : c < 0x20 ∨ c = quote ∨ c = backslash
    · obtain ⟨e, he, htext⟩ := exists_escape hc
      have hbyte : serializeByte c = backslash :: e := by
        rw [serializeByte, htext]
        rcases hc with hc | hc
        · rw [if_pos hc]
        · rw [if_pos hc, ite_self]
      rw [hbyte, List.cons_append]
      exact .escape he ih
    · obtain ⟨hlow, hq, hb⟩ : ¬ c < 0x20 ∧ c ≠ quote ∧ c ≠ backslash := by
        simpa only [not_or] using hc
      rw [serializeByte, if_neg hlow, if_neg (not_or.mpr ⟨hq, hb⟩), List.singleton_append]
      exact .raw (not_lt.mp hlow) hq hb ih

theorem stringToken_serialize {m : Nat} {s : Bytes} (hs : s.length ≤ m) :
    StringToken m (serializeString s) s :=
  .mk (stringBody_serialize s) hs

/-! ## Trees -/

end JsonText

namespace Json

variable {S N : Type}

mutual

/-- How deep a tree nests arrays and objects. -/
def nesting : Json S N → Nat
  | .null => 0
  | .bool _ => 0
  | .number _ => 0
  | .string _ => 0
  | .array items => itemsNesting items + 1
  | .object fields => fieldsNesting fields + 1

def itemsNesting : List (Json S N) → Nat
  | [] => 0
  | v :: vs => max (nesting v) (itemsNesting vs)

def fieldsNesting : List (S × Json S N) → Nat
  | [] => 0
  | (_, v) :: kvs => max (nesting v) (fieldsNesting kvs)

end

/-- A tree whose numbers are integers up to `2 ^ 53`, and whose strings and keys
have at most `maxString` bytes. -/
inductive Integral [Double N] (maxString : Nat) : Json Bytes N → Prop
  | null : Integral maxString null
  | bool (b : Bool) : Integral maxString (bool b)
  | number {n : Int} : n.natAbs ≤ 2 ^ 53 → Integral maxString (number (Double.ofInt n))
  | string {s : Bytes} : s.length ≤ maxString → Integral maxString (string s)
  | array {items : List (Json Bytes N)} : (∀ v ∈ items, Integral maxString v) →
      Integral maxString (array items)
  | object {fields : List (Bytes × Json Bytes N)} : (∀ kv ∈ fields, kv.1.length ≤ maxString) →
      (∀ kv ∈ fields, Integral maxString kv.2) → Integral maxString (object fields)

end Json

/-- A number whose text is a number token that denotes it. -/
def JsonText.Reads {N : Type} [DecimalDouble N] (d : N) : Prop :=
  ∃ token : Decimal, token.WellFormed ∧ serializeNumber d = (token.text, true) ∧
    DecimalDouble.ofDecimal token.neg token.magnitude = some d

/-- A tree whose numbers are read back from their text, and whose strings and keys
have at most `maxString` bytes. -/
inductive Json.Printable {N : Type} [DecimalDouble N] (maxString : Nat) : Json Bytes N → Prop
  | null : Printable maxString null
  | bool (b : Bool) : Printable maxString (bool b)
  | number {d : N} : Reads d → Printable maxString (number d)
  | string {s : Bytes} : s.length ≤ maxString → Printable maxString (string s)
  | array {items : List (Json Bytes N)} : (∀ v ∈ items, Printable maxString v) →
      Printable maxString (array items)
  | object {fields : List (Bytes × Json Bytes N)} : (∀ kv ∈ fields, kv.1.length ≤ maxString) →
      (∀ kv ∈ fields, Printable maxString kv.2) → Printable maxString (object fields)

namespace JsonText

variable {N : Type} [DecimalDouble N] {m : Nat}

theorem serializeNumber_ofInt [ExactIntegers N] {n : Int} (hn : n.natAbs ≤ 2 ^ 53) :
    serializeNumber (Double.ofInt n : N) = (intText n, true) := by
  have hle : n.natAbs ≤ 2 ^ 63 := by omega
  have hfloor : (JsonDouble.floor (Double.ofInt n : N) == Double.ofInt n) = true := by
    have h := ExactIntegers.floor_ofInt (F := N) n hle
    rwa [bne, Bool.not_eq_false'] at h
  have hback : (Int64.ofInt n).toInt = n := Int64.toInt_ofInt_of_le (by omega) (by omega)
  rw [serializeNumber, if_neg (by simp [ExactIntegers.isFinite_ofInt n hle]),
    if_pos ⟨hfloor, ExactIntegers.ofInt_le _ _ (by omega), ExactIntegers.ofInt_le _ _ (by omega)⟩,
    ExactIntegers.toInt64_ofInt n hn, hback]

/-- Integers up to `2 ^ 53` are read back. -/
theorem reads_ofInt [ReadsIntegers N] {n : Int} (hn : n.natAbs ≤ 2 ^ 53) :
    Reads (Double.ofInt n : N) := by
  refine ⟨intDecimal n, intDecimal_wellFormed n, ?_, ?_⟩
  · rw [serializeNumber_ofInt hn, intDecimal_text]
  · rw [intDecimal_magnitude]
    exact ReadsIntegers.ofDecimal_natAbs n hn

theorem printable_of_integral [ReadsIntegers N] {v : Json Bytes N} (h : v.Integral m) :
    v.Printable m := by
  induction h with
  | null => exact .null
  | bool b => exact .bool b
  | number hn => exact .number (reads_ofInt hn)
  | string hs => exact .string hs
  | array _ ih => exact .array ih
  | object hkeys _ ih => exact .object hkeys ih

/-- A separator stands before every element but the first. -/
theorem serializeItems_false (vs : List (Json Bytes N)) :
    (serializeItems false vs).1 = if vs = [] then [] else comma :: (serializeItems true vs).1 := by
  cases vs with
  | nil => rfl
  | cons v vs => simp [serializeItems]

theorem serializeFields_false (kvs : List (Bytes × Json Bytes N)) :
    (serializeFields false kvs).1 =
      if kvs = [] then [] else comma :: (serializeFields true kvs).1 := by
  cases kvs with
  | nil => rfl
  | cons kv kvs => simp [serializeFields]

theorem serializeItems_flag (first : Bool) (vs : List (Json Bytes N)) :
    (serializeItems first vs).2 = (serializeItems true vs).2 := by
  cases vs with
  | nil => rfl
  | cons v vs => rfl

theorem serializeFields_flag (first : Bool) (kvs : List (Bytes × Json Bytes N)) :
    (serializeFields first kvs).2 = (serializeFields true kvs).2 := by
  cases kvs with
  | nil => rfl
  | cons kv kvs => rfl

mutual

/-- **The text of a tree denotes it.** -/
theorem serializeTo_printable : ∀ v : Json Bytes N, v.Ordered → v.Printable m →
    (serializeTo v).2 = true ∧ Denotes m (serializeTo v).1 v
  | .null, _, _ => ⟨rfl, .nullValue⟩
  | .bool true, _, _ => ⟨rfl, .trueValue⟩
  | .bool false, _, _ => ⟨rfl, .falseValue⟩
  | .number d, _, hin => by
    cases hin with
    | number hreads =>
      obtain ⟨token, hwf, htext, hval⟩ := hreads
      rw [serializeTo, htext]
      exact ⟨rfl, .number hwf hval⟩
  | .string s, _, hin => by
    cases hin with
    | string hs => exact ⟨rfl, .string (stringToken_serialize hs)⟩
  | .array items, hord, hin => by
    cases hord with
    | array hord =>
      cases hin with
      | array hin =>
        obtain ⟨hflag, ht⟩ := serializeItems_elements items hord hin
        refine ⟨hflag, ?_⟩
        by_cases hne : items = []
        · subst hne
          exact .emptyArray Ws.nil
        · exact .array (ht hne)
  | .object fields, hord, hin => by
    cases hord with
    | object hasc hord =>
      cases hin with
      | object hkeys hin =>
        obtain ⟨hflag, ht⟩ := serializeFields_members fields hord hkeys hin
        refine ⟨hflag, ?_⟩
        by_cases hne : fields = []
        · subst hne
          exact .emptyObject Ws.nil
        · have h := Denotes.object (ht hne)
          rwa [Json.ofFields, SortedMap.ofEntries_of_ascending hasc] at h

theorem serializeItems_elements : ∀ vs : List (Json Bytes N),
    (∀ v ∈ vs, v.Ordered) → (∀ v ∈ vs, v.Printable m) →
    (serializeItems true vs).2 = true ∧ (vs ≠ [] → Elements m (serializeItems true vs).1 vs)
  | [], _, _ => ⟨rfl, fun h => absurd rfl h⟩
  | v :: vs, hord, hin => by
    obtain ⟨hflag, ht⟩ :=
      serializeTo_printable v (hord v List.mem_cons_self) (hin v List.mem_cons_self)
    obtain ⟨hflags, hts⟩ := serializeItems_elements vs
      (fun x hx => hord x (List.mem_cons_of_mem _ hx)) fun x hx => hin x (List.mem_cons_of_mem _ hx)
    have hall : (serializeItems true (v :: vs)).2 = true := by
      rw [serializeItems, serializeItems_flag, hflag, hflags]
      rfl
    refine ⟨hall, ?_⟩
    intro _
    rw [serializeItems, serializeItems_false]
    by_cases hne : vs = []
    · subst hne
      exact .one Ws.nil ht Ws.nil
    · rw [if_neg hne]
      exact .cons Ws.nil ht Ws.nil (hts hne)

theorem serializeFields_members : ∀ kvs : List (Bytes × Json Bytes N),
    (∀ kv ∈ kvs, kv.2.Ordered) → (∀ kv ∈ kvs, kv.1.length ≤ m) → (∀ kv ∈ kvs, kv.2.Printable m) →
    (serializeFields true kvs).2 = true ∧ (kvs ≠ [] → Members m (serializeFields true kvs).1 kvs)
  | [], _, _, _ => ⟨rfl, fun h => absurd rfl h⟩
  | (k, v) :: kvs, hord, hkeys, hin => by
    obtain ⟨hflag, ht⟩ := serializeTo_printable v (hord (k, v) List.mem_cons_self)
      (hin (k, v) List.mem_cons_self)
    obtain ⟨hflags, hts⟩ := serializeFields_members kvs
      (fun x hx => hord x (List.mem_cons_of_mem _ hx))
      (fun x hx => hkeys x (List.mem_cons_of_mem _ hx))
      fun x hx => hin x (List.mem_cons_of_mem _ hx)
    have hk := stringToken_serialize (hkeys (k, v) List.mem_cons_self)
    have hall : (serializeFields true ((k, v) :: kvs)).2 = true := by
      rw [serializeFields, serializeFields_flag, hflag, hflags]
      rfl
    refine ⟨hall, ?_⟩
    intro _
    rw [serializeFields, serializeFields_false]
    by_cases hne : kvs = []
    · subst hne
      have h := Members.one Ws.nil hk Ws.nil Ws.nil ht Ws.nil
      simpa using h
    · have h := Members.cons Ws.nil hk Ws.nil Ws.nil ht Ws.nil (hts hne)
      simpa [hne] using h

end

theorem serializeTo_denotes [ReadsIntegers N] (v : Json Bytes N) (hord : v.Ordered)
    (hin : v.Integral m) : (serializeTo v).2 = true ∧ Denotes m (serializeTo v).1 v :=
  serializeTo_printable v hord (printable_of_integral hin)

/-! ## Nesting of a serialized tree -/

theorem nestingFrom_serializeString (k : Bytes) (depth : Nat) (s : Bytes) :
    nestingFrom depth (serializeString k ++ s) = nestingFrom depth s :=
  (stringToken_serialize le_rfl).nestingFrom_append depth s

theorem nestingFrom_separator (first : Bool) (depth : Nat) (s : Bytes) :
    nestingFrom depth ((if first then [] else [comma]) ++ s) = nestingFrom depth s := by
  cases first with
  | true => rfl
  | false => exact nestingFrom_cons (by decide) depth s

mutual

/-- **A text nests as deep as its tree, or as what follows it.** -/
theorem nestingFrom_serializeTo (depth : Nat) (s : Bytes) :
    ∀ v : Json Bytes N, v.Printable m →
      nestingFrom depth ((serializeTo v).1 ++ s) = max (depth + v.nesting) (nestingFrom depth s)
  | .null, _ => by
    rw [serializeTo, nestingFrom_neutral (by decide +kernel)]
    exact (max_eq_right (le_nestingFrom depth s)).symm
  | .bool b, _ => by
    have hneutral : ∀ c ∈ (if b then litTrue else litFalse), Neutral c := by
      cases b with
      | true => decide +kernel
      | false => decide +kernel
    rw [serializeTo, nestingFrom_neutral hneutral]
    exact (max_eq_right (le_nestingFrom depth s)).symm
  | .number d, hin => by
    cases hin with
    | number hreads =>
      obtain ⟨token, hwf, htext, -⟩ := hreads
      rw [serializeTo, htext, nestingFrom_neutral hwf.neutral]
      exact (max_eq_right (le_nestingFrom depth s)).symm
  | .string k, _ => by
    rw [serializeTo, nestingFrom_serializeString]
    exact (max_eq_right (le_nestingFrom depth s)).symm
  | .array items, hin => by
    cases hin with
    | array hin =>
      rw [serializeTo, List.cons_append, List.append_assoc, nestingFrom_open (.inl rfl),
        nestingFrom_serializeItems (depth + 1) _ true items hin, List.singleton_append,
        nestingFrom_close (.inl rfl), Json.nesting]
      omega
  | .object fields, hin => by
    cases hin with
    | object _ hin =>
      rw [serializeTo, List.cons_append, List.append_assoc, nestingFrom_open (.inr rfl),
        nestingFrom_serializeFields (depth + 1) _ true fields hin, List.singleton_append,
        nestingFrom_close (.inr rfl), Json.nesting]
      omega

theorem nestingFrom_serializeItems (depth : Nat) (s : Bytes) (first : Bool) :
    ∀ vs : List (Json Bytes N), (∀ v ∈ vs, v.Printable m) →
      nestingFrom depth ((serializeItems first vs).1 ++ s) =
        max (depth + Json.itemsNesting vs) (nestingFrom depth s)
  | [], _ => (max_eq_right (le_nestingFrom depth s)).symm
  | v :: vs, hin => by
    rw [serializeItems, List.append_assoc, List.append_assoc, nestingFrom_separator,
      nestingFrom_serializeTo depth _ v (hin v List.mem_cons_self),
      nestingFrom_serializeItems depth s false vs fun x hx => hin x (List.mem_cons_of_mem _ hx),
      Json.itemsNesting]
    omega

theorem nestingFrom_serializeFields (depth : Nat) (s : Bytes) (first : Bool) :
    ∀ kvs : List (Bytes × Json Bytes N), (∀ kv ∈ kvs, kv.2.Printable m) →
      nestingFrom depth ((serializeFields first kvs).1 ++ s) =
        max (depth + Json.fieldsNesting kvs) (nestingFrom depth s)
  | [], _ => (max_eq_right (le_nestingFrom depth s)).symm
  | (k, v) :: kvs, hin => by
    simp only [serializeFields, List.append_assoc]
    rw [nestingFrom_separator, nestingFrom_serializeString, List.singleton_append,
      nestingFrom_cons (by decide),
      nestingFrom_serializeTo depth _ v (hin (k, v) List.mem_cons_self),
      nestingFrom_serializeFields depth s false kvs fun x hx => hin x (List.mem_cons_of_mem _ hx),
      Json.fieldsNesting]
    omega

end

theorem containerNesting_printable {v : Json Bytes N} (hin : v.Printable m) :
    containerNesting (serializeTo v).1 = v.nesting := by
  have h := nestingFrom_serializeTo 0 [] v hin
  rw [List.append_nil, Nat.zero_add] at h
  rw [containerNesting, h, nestingFrom, Nat.max_zero]

theorem containerNesting_serializeTo [ReadsIntegers N] {v : Json Bytes N} (hin : v.Integral m) :
    containerNesting (serializeTo v).1 = v.nesting :=
  containerNesting_printable (printable_of_integral hin)

end JsonText

/-! ## Round trip -/

instance : ReadsIntegers ℚ where
  isFinite_ofInt _ _ := rfl
  floor_ofInt n _ := by
    have h : (((n : ℚ).floor : ℤ) : ℚ) = n := by rw [Rat.floor_intCast]
    exact bne_eq_false_iff_eq.mpr h
  not_ofInt_lt m n h := not_lt.mpr (Int.cast_le.mpr h)
  ofInt_le m n h := Int.cast_le.mpr h
  toInt64_ofInt n _ := congrArg Int64.ofInt (Int.tdiv_one n)
  toUInt64_ofInt n _ := by
    have h : ((n : ℤ).tdiv 1).toNat = n := by rw [Int.tdiv_one, Int.toNat_natCast]
    exact congrArg UInt64.ofNat h
  ofDecimal_natAbs n _ := by
    show some (if (decide (n < 0)) = true then -((n.natAbs : ℕ) : ℚ) else n.natAbs) = some (n : ℚ)
    by_cases hn : n < 0
    · have habs : ((n.natAbs : ℤ) : ℚ) = ((-n : ℤ) : ℚ) := congrArg _ (by omega)
      rw [Int.cast_natCast, Int.cast_neg] at habs
      rw [if_pos (decide_eq_true hn), habs, neg_neg]
    · have habs : ((n.natAbs : ℤ) : ℚ) = (n : ℚ) := congrArg _ (by omega)
      rw [Int.cast_natCast] at habs
      rw [if_neg (by simpa using hn), habs]

variable {N : Type} [DecimalDouble N] [ReadsIntegers N]

/-- **JSON text round trip.** A tree of integers up to `2 ^ 53` whose containers
nest less deep than the limit, and whose strings and keys are within theirs, is
serialized; and the parser returns the tree from its text, if that is within the
size limit. -/
theorem json_text_round_trip (v : Json Bytes N) (limits : JsonParseLimits) (hord : v.Ordered)
    (hin : v.Integral limits.maxString) (hnest : v.nesting < limits.maxDepth) :
    ∃ text, jsonSerialize v = some text ∧
      (text.length ≤ limits.maxBytes → jsonParse text limits = some v) := by
  obtain ⟨hflag, hdenotes⟩ := serializeTo_denotes v hord hin
  refine ⟨(serializeTo v).1, ?_, ?_⟩
  · rw [jsonSerialize, if_pos hflag]
  · intro hlen
    have htext : TextDenotes limits.maxString (serializeTo v).1 v := by
      have h := TextDenotes.mk Ws.nil hdenotes Ws.nil
      rwa [List.append_nil, List.nil_append] at h
    refine jsonParse_of_denotes hlen htext ((levelNesting_le _).trans ?_)
    rw [containerNesting_serializeTo hin]
    exact hnest

/-- An object with a key of a control byte and a quote, and an array. -/
theorem json_text_round_trip_object :
    ∃ text, jsonSerialize (Json.object [([0x00, 0x22], .array [.number (-1 : ℚ), .bool true])]) =
        some text ∧
      (text.length ≤ 4194304 → jsonParse text {} =
        some (Json.object [([0x00, 0x22], .array [.number (-1 : ℚ), .bool true])])) := by
  have hint : (Json.number (-1 : ℚ) : Json Bytes ℚ).Integral 1048576 :=
    .number (n := -1) (by decide)
  refine json_text_round_trip _ {} (.object ?_ ?_) (.object ?_ ?_) (by decide)
  · exact List.pairwise_singleton _ _
  · simp only [List.forall_mem_singleton]
    refine .array ?_
    simp only [List.forall_mem_cons, List.not_mem_nil]
    exact ⟨.number _, .bool _, nofun⟩
  · simp only [List.forall_mem_singleton]
    decide
  · simp only [List.forall_mem_singleton]
    refine .array ?_
    simp only [List.forall_mem_cons, List.not_mem_nil]
    exact ⟨hint, .bool _, nofun⟩

end MemoryPressure
