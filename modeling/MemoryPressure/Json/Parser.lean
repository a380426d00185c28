import MemoryPressure.Json.Grammar

/-!
# The strict parser (`json.cpp`)

`Parser` method by method, on the bytes that are left instead of a position;
`at_end` is the empty list. The depth is a parameter, since a method that
succeeds leaves it as it found it and a failure is final.

The source's `for (;;)` loops get a number of turns and `parse_value` a bound on
its recursion, each at least the number of bytes left; running out is a third
outcome, `exhausted`, apart from success and failure.

- `Outcome`, `andThen`: the three outcomes, and going on from a success. The source tests
  after each call whether the parser has failed; here a failure ends the sequence.
- `stringLoop`, `elementsLoop`, `membersLoop`: the three loops. The latter two take the
  parser of a value as an argument, as the source's methods call each other.
- `scanDecimal`: the extent of a number token, in the order of the source's checks. The
  token is then read as a whole by `std::from_chars` (`JsonDouble.fromChars`).
- `jsonParse`: the size limit, one value, and nothing but white space after it.

That the bounds are never met is `parseDocument_ne_exhausted`: the source, which has none,
ends on every text. A failure carries nothing, in the source (`failed`) as here:
`json_parse` returns an empty optional, wherever the parser stopped.
-/

namespace MemoryPressure

open JsonText

/-- `JsonParseLimits` (json.h:100). -/
structure JsonParseLimits where
  maxDepth : Nat := 128
  maxBytes : Nat := 4 * 1024 * 1024
  maxString : Nat := 1024 * 1024
  rejectNonFinite : Bool := true
  deriving DecidableEq, Repr

/-- What a method of the parser comes to: a value and the bytes left, a failure,
or out of turns. -/
inductive Outcome (α : Type) where
  | done (a : α) (rest : Bytes)
  | failed
  | exhausted

namespace Outcome

variable {α β : Type}

/-- Go on from a success. -/
def andThen (o : Outcome α) (f : α → Bytes → Outcome β) : Outcome β :=
  match o with
  | done a rest => f a rest
  | failed => failed
  | exhausted => exhausted

@[simp] theorem andThen_done (a : α) (rest : Bytes) (f : α → Bytes → Outcome β) :
    (done a rest).andThen f = f a rest := rfl

/-- **Inversion of a sequence.** -/
theorem andThen_eq_done {o : Outcome α} {f : α → Bytes → Outcome β} {b : β} {rest : Bytes} :
    o.andThen f = done b rest ↔ ∃ a s, o = done a s ∧ f a s = done b rest := by
  cases o with
  | done a s =>
    constructor
    · intro h
      exact ⟨a, s, rfl, h⟩
    · rintro ⟨a', s', h, hf⟩
      obtain ⟨rfl, rfl⟩ := Outcome.done.inj h
      exact hf
  | failed =>
    constructor
    · intro h
      cases h
    · rintro ⟨_, _, h, -⟩
      cases h
  | exhausted =>
    constructor
    · intro h
      cases h
    · rintro ⟨_, _, h, -⟩
      cases h

/-- A sequence runs out of turns only where one of its parts does. -/
theorem andThen_ne_exhausted {o : Outcome α} {f : α → Bytes → Outcome β} (ho : o ≠ exhausted)
    (hf : ∀ a s, o = done a s → f a s ≠ exhausted) : o.andThen f ≠ exhausted := by
  cases o with
  | done a s => exact hf a s rfl
  | failed => exact fun h => by cases h
  | exhausted => exact absurd rfl ho

end Outcome

namespace JsonText

/-- `append_utf8` (json.cpp:13): a code point below 2 ^ 21. -/
def appendUtf8 (cp : Nat) : Bytes :=
  if cp ≤ 0x7F then [UInt8.ofNat cp]
  else if cp ≤ 0x7FF then
    [UInt8.ofNat (0xC0 ||| (cp >>> 6)), UInt8.ofNat (0x80 ||| (cp &&& 0x3F))]
  else if cp ≤ 0xFFFF then
    [UInt8.ofNat (0xE0 ||| (cp >>> 12)), UInt8.ofNat (0x80 ||| ((cp >>> 6) &&& 0x3F)),
      UInt8.ofNat (0x80 ||| (cp &&& 0x3F))]
  else
    [UInt8.ofNat (0xF0 ||| (cp >>> 18)), UInt8.ofNat (0x80 ||| ((cp >>> 12) &&& 0x3F)),
      UInt8.ofNat (0x80 ||| ((cp >>> 6) &&& 0x3F)), UInt8.ofNat (0x80 ||| (cp &&& 0x3F))]

/-- `hex_value` (json.cpp:31). -/
def hexValue (c : UInt8) : Option Nat :=
  if 0x30 ≤ c ∧ c ≤ 0x39 then some (c.toNat - 0x30)
  else if 0x61 ≤ c ∧ c ≤ 0x66 then some (c.toNat - 0x61 + 10)
  else if 0x41 ≤ c ∧ c ≤ 0x46 then some (c.toNat - 0x41 + 10)
  else none

/-- `Parser::skip_ws` (json.cpp:70). -/
def skipWs (s : Bytes) : Bytes := s.dropWhile isWs

/-- The loop that reads hexadecimal digits (json.cpp:190 and 200). -/
def hexLoop : Nat → Nat → Bytes → Option (Nat × Bytes)
  | 0, cp, s => some (cp, s)
  | _ + 1, _, [] => none
  | n + 1, cp, c :: s =>
    match hexValue c with
    | none => none
    | some h => hexLoop n ((cp <<< 4) ||| h) s

/-- `Parser::parse_unicode_escape` (json.cpp:188): what is appended, and the
bytes left. -/
def parseUnicodeEscape (s : Bytes) : Option (Bytes × Bytes) :=
  match hexLoop 4 0 s with
  | none => none
  | some (cp, s) =>
    if 0xD800 ≤ cp ∧ cp ≤ 0xDBFF then
      -- a high surrogate stands only before the escape of a low one
      match s with
      | b :: u :: s =>
        if b = backslash ∧ u = letterU then
          match hexLoop 4 0 s with
          | none => none
          | some (lo, s) =>
            if lo < 0xDC00 ∨ 0xDFFF < lo then none
            else some (appendUtf8 (0x10000 + ((cp - 0xD800) <<< 10) + (lo - 0xDC00)), s)
        else none
      | _ => none
    else if 0xDC00 ≤ cp ∧ cp ≤ 0xDFFF then none
    else some (appendUtf8 cp, s)

/-- The escape table of `parse_string` (json.cpp:167–178), but for `\u`. -/
def simpleEscape (e : UInt8) : Option UInt8 :=
  if e = 0x22 then some 0x22
  else if e = 0x5C then some 0x5C
  else if e = 0x2F then some 0x2F
  else if e = 0x62 then some 0x08
  else if e = 0x66 then some 0x0C
  else if e = 0x6E then some 0x0A
  else if e = 0x72 then some 0x0D
  else if e = 0x74 then some 0x09
  else none

/-- What follows a backslash: the bytes it appends, and the bytes left. -/
def parseEscape : Bytes → Option (Bytes × Bytes)
  | [] => none
  | e :: s => if e = letterU then parseUnicodeEscape s else (simpleEscape e).map fun b => ([b], s)

/-- The loop of `Parser::parse_string` (json.cpp:159), `str` read so far. -/
def stringLoop (maxString : Nat) : Nat → Bytes → Bytes → Outcome Bytes
  | 0, _, _ => .exhausted
  | _ + 1, _, [] => .failed
  | n + 1, str, c :: s =>
    if c = quote then .done str s
    else if c < 0x20 then .failed
    else if c = backslash then
      match parseEscape s with
      | none => .failed
      | some (b, s) =>
        -- the limit is on what was read, so an escape counts with the bytes it stands for
        if (str ++ b).length > maxString then .failed else stringLoop maxString n (str ++ b) s
    else if (str ++ [c]).length > maxString then .failed
    else stringLoop maxString n (str ++ [c]) s

/-- `Parser::parse_string` (json.cpp:154) after its opening quote. -/
def parseString (limits : JsonParseLimits) (depth : Nat) (s : Bytes) : Outcome Bytes :=
  -- a string is checked like a container but does not count as a level
  if depth ≥ limits.maxDepth then .failed
  else stringLoop limits.maxString (s.length + 1) [] s

/-! ## Numbers -/

/-- The integer part (json.cpp:219–225). -/
def scanInt : Bytes → Option (Bytes × Bytes)
  | [] => none
  | c :: s =>
    -- a leading zero is all of the integer part
    if c = zero then some ([c], s)
    else if 0x31 ≤ c ∧ c ≤ 0x39 then some ((c :: s).span isDigit)
    else none

/-- The fraction, if there is one (json.cpp:226–230). -/
def scanFrac : Bytes → Option (Option Bytes × Bytes)
  | [] => some (none, [])
  | c :: s =>
    if c = dot then
      match s.span isDigit with
      | ([], _) => none
      | (ds, rest) => some (some ds, rest)
    else some (none, c :: s)

/-- The sign of an exponent, if it has one (json.cpp:233). -/
def scanSign : Bytes → Option UInt8 × Bytes
  | [] => (none, [])
  | c :: s => if c = plus ∨ c = minus then (some c, s) else (none, c :: s)

/-- The exponent, if there is one (json.cpp:231–236). -/
def scanExp : Bytes → Option (Option (UInt8 × Option UInt8 × Bytes) × Bytes)
  | [] => some (none, [])
  | c :: s =>
    if c = 0x65 ∨ c = 0x45 then
      match (scanSign s).2.span isDigit with
      | ([], _) => none
      | (ds, rest) => some (some (c, (scanSign s).1, ds), rest)
    else some (none, c :: s)

/-- The sign of a number (json.cpp:217). -/
def scanMinus : Bytes → Bool × Bytes
  | [] => (false, [])
  | c :: s => if c = minus then (true, s) else (false, c :: s)

/-- The extent of a number token (json.cpp:216–238). -/
def scanDecimal (s : Bytes) : Option (Decimal × Bytes) :=
  match scanInt (scanMinus s).2 with
  | none => none
  | some (int, s') =>
    match scanFrac s' with
    | none => none
    | some (frac, s') =>
      match scanExp s' with
      | none => none
      | some (exp, s') =>
        some ({ neg := (scanMinus s).1, int := int, frac := frac, exp := exp }, s')

variable {N : Type} [JsonDouble N]

/-- `Parser::parse_number` (json.cpp:215). -/
def parseNumber (limits : JsonParseLimits) (s : Bytes) : Outcome (Json Bytes N) :=
  match scanDecimal s with
  | none => .failed
  | some (d, rest) =>
    match JsonDouble.fromChars d.text with
    | some (value, []) =>
      -- a token may be out of the range of `double`
      if Double.isFinite value = false ∧ limits.rejectNonFinite = true then .failed
      else .done (.number value) rest
    | _ => .failed

/-! ## Values -/

/-- `Parser::parse_literal` and `Parser::parse_literal_null` (json.cpp:95). -/
def parseLiteral (lit : Bytes) (v : Json Bytes N) (s : Bytes) : Outcome (Json Bytes N) :=
  if s.take lit.length = lit then .done v (s.drop lit.length) else .failed

/-- The loop of `Parser::parse_array` (json.cpp:143), `arr` read so far. -/
def elementsLoop (parseValue : Bytes → Outcome (Json Bytes N)) :
    Nat → List (Json Bytes N) → Bytes → Outcome (Json Bytes N)
  | 0, _, _ => .exhausted
  | n + 1, arr, s =>
    (parseValue s).andThen fun val s =>
      match skipWs s with
      | [] => .failed
      | e :: s =>
        if e = closeBracket then .done (.array (arr ++ [val])) s
        -- after a comma there must be another value
        else if e = comma then elementsLoop parseValue n (arr ++ [val]) s
        else .failed

/-- `Parser::parse_array` (json.cpp:136) after its bracket. -/
def parseArray (limits : JsonParseLimits) (parseValue : Bytes → Outcome (Json Bytes N))
    (depth : Nat) (s : Bytes) : Outcome (Json Bytes N) :=
  if depth ≥ limits.maxDepth then .failed
  else if (skipWs s).head? = some closeBracket then .done (.array []) (skipWs s).tail
  else elementsLoop parseValue (s.length + 1) [] (skipWs s)

/-- The loop of `Parser::parse_object` (json.cpp:118), `obj` read so far. -/
def membersLoop (parseKey : Bytes → Outcome Bytes) (parseValue : Bytes → Outcome (Json Bytes N)) :
    Nat → List (Bytes × Json Bytes N) → Bytes → Outcome (Json Bytes N)
  | 0, _, _ => .exhausted
  | n + 1, obj, s =>
    match skipWs s with
    | [] => .failed
    | q :: s =>
      if q = quote then
        (parseKey s).andThen fun key s =>
          match skipWs s with
          | [] => .failed
          | c :: s =>
            if c = colon then
              (parseValue s).andThen fun val s =>
                match skipWs s with
                | [] => .failed
                | e :: s =>
                  if e = closeBrace then .done (.object (SortedMap.insert key val obj)) s
                  else if e = comma then
                    membersLoop parseKey parseValue n (SortedMap.insert key val obj) s
                  else .failed
            else .failed
      else .failed

/-- `Parser::parse_object` (json.cpp:111) after its brace. -/
def parseObject (limits : JsonParseLimits) (parseValue : Bytes → Outcome (Json Bytes N))
    (depth : Nat) (s : Bytes) : Outcome (Json Bytes N) :=
  if depth ≥ limits.maxDepth then .failed
  else if (skipWs s).head? = some closeBrace then .done (.object []) (skipWs s).tail
  else
    -- keys are strings inside the object, so they are checked one level down
    membersLoop (parseString limits (depth + 1)) parseValue (s.length + 1) [] (skipWs s)

/-- `Parser::parse_value` (json.cpp:80) at a depth, with a bound on how deep it
recurses. -/
def parseValue (limits : JsonParseLimits) : Nat → Nat → Bytes → Outcome (Json Bytes N)
  | 0, _, _ => .exhausted
  | fuel + 1, depth, s =>
    match skipWs s with
    | [] => .failed
    | c :: s =>
      if c = openBrace then parseObject limits (parseValue limits fuel (depth + 1)) depth s
      else if c = openBracket then parseArray limits (parseValue limits fuel (depth + 1)) depth s
      else if c = quote then
        (parseString limits depth s).andThen fun str rest => .done (.string str) rest
      else if c = 0x74 then parseLiteral litTrue (.bool true) (c :: s)
      else if c = 0x66 then parseLiteral litFalse (.bool false) (c :: s)
      else if c = 0x6E then parseLiteral litNull .null (c :: s)
      else if c = minus ∨ isDigit c then parseNumber limits (c :: s)
      else .failed

end JsonText

variable {N : Type} [JsonDouble N]

/-- What `json_parse` comes to on a text: the value and nothing left, a failure,
or out of turns. -/
def parseDocument (text : Bytes) (limits : JsonParseLimits) : Outcome (Json Bytes N) :=
  if text.length > limits.maxBytes then .failed
  else
    (JsonText.parseValue limits (text.length + 1) 0 text).andThen fun root s =>
      match JsonText.skipWs s with
      | [] => .done root []
      | _ => .failed

/-- `json_parse` (json.cpp:397). -/
def jsonParse (text : Bytes) (limits : JsonParseLimits) : Option (Json Bytes N) :=
  match parseDocument text limits with
  | .done root _ => some root
  | .failed | .exhausted => none

end MemoryPressure
