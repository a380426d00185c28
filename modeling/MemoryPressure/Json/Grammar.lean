import Mathlib.Data.List.Lex
import Mathlib.Data.Rat.Defs
import MemoryPressure.Json.Value

/-!
# The JSON grammar (RFC 8259)

Which byte strings are JSON texts and what they denote, independently of the
parser.

- `Decimal`: the number token, as its parts; its text and the number it denotes.
- `StringBody`, `Escape`: what stands between two quotes, and the bytes it
  denotes; escapes denote their code point in UTF-8, surrogates only in pairs.
- `Denotes`, `Elements`, `Members`: values, array elements and object members
  with the white space between tokens; of equal keys the last wins.
- `containerNesting`: how deep a text opens brackets and braces.

Bytes of a string that stand for themselves are unrestricted from 0x20 on, so a
text need not be valid UTF-8.

A derivation says of a text both that it is one and what it denotes, so that a reader can
be compared with it in one statement. A number token denotes a rational exactly; the
`double` it is read as is a matter of `DecimalDouble`, the nearest one where it is in
range. Strings are bounded in length by a parameter, since the parser has such a limit;
without it the grammar is that of the standard. Nesting is counted over bytes and not over
derivations, with brackets inside of strings left out.
-/

namespace MemoryPressure

/-- Bytes in the order `std::string` compares them. -/
instance byteLinearOrder : LinearOrder UInt8 where
  le_refl := UInt8.le_refl
  le_trans _ _ _ := UInt8.le_trans
  le_antisymm _ _ := UInt8.le_antisymm
  le_total := UInt8.le_total
  lt_iff_le_not_ge a b := by
    rw [UInt8.lt_iff_toNat_lt, UInt8.le_iff_toNat_le, UInt8.le_iff_toNat_le]
    omega
  toDecidableLE := inferInstance
  toDecidableLT := inferInstance
  toDecidableEq := inferInstance

/-- A `std::string` of the text layer. -/
abbrev Bytes := List UInt8

namespace JsonText

/-! ## Tokens -/

abbrev quote : UInt8 := 0x22
abbrev plus : UInt8 := 0x2B
abbrev comma : UInt8 := 0x2C
abbrev minus : UInt8 := 0x2D
abbrev dot : UInt8 := 0x2E
abbrev zero : UInt8 := 0x30
abbrev colon : UInt8 := 0x3A
abbrev openBracket : UInt8 := 0x5B
abbrev backslash : UInt8 := 0x5C
abbrev closeBracket : UInt8 := 0x5D
abbrev letterU : UInt8 := 0x75
abbrev openBrace : UInt8 := 0x7B
abbrev closeBrace : UInt8 := 0x7D

/-- `true`. -/
abbrev litTrue : Bytes := [0x74, 0x72, 0x75, 0x65]

/-- `false`. -/
abbrev litFalse : Bytes := [0x66, 0x61, 0x6C, 0x73, 0x65]

/-- `null`. -/
abbrev litNull : Bytes := [0x6E, 0x75, 0x6C, 0x6C]

/-- Space, tab, line feed, carriage return. -/
def isWs (c : UInt8) : Bool := c = 0x20 || c = 0x09 || c = 0x0A || c = 0x0D

/-- White space between tokens. -/
def Ws (w : Bytes) : Prop := ∀ c ∈ w, isWs c = true

/-- A decimal digit. -/
def isDigit (c : UInt8) : Bool := 0x30 ≤ c && c ≤ 0x39

/-! ## Numbers -/

/-- The parts of a number token: its sign, its integer digits, its fraction
digits if it has a fraction, and its exponent if it has one: the letter that
starts it, its sign if it has one, and its digits. -/
structure Decimal where
  neg : Bool
  int : Bytes
  frac : Option Bytes
  exp : Option (UInt8 × Option UInt8 × Bytes)
  deriving DecidableEq, Repr

namespace Decimal

/-- Digits, at least one of them. -/
def Digits (ds : Bytes) : Prop := ds ≠ [] ∧ ∀ c ∈ ds, isDigit c = true

/-- The parts are those of a JSON number: no leading zero, no empty fraction or
exponent. -/
structure WellFormed (d : Decimal) : Prop where
  int : Digits d.int
  noLeadingZero : d.int.head? = some zero → d.int = [zero]
  frac : ∀ ds ∈ d.frac, Digits ds
  exp : ∀ e ∈ d.exp, (e.1 = 0x65 ∨ e.1 = 0x45) ∧ (∀ s ∈ e.2.1, s = plus ∨ s = minus) ∧ Digits e.2.2

/-- The token. -/
def text (d : Decimal) : Bytes :=
  (if d.neg then [minus] else []) ++ d.int
    ++ (d.frac.elim [] fun ds => dot :: ds)
    ++ d.exp.elim [] fun e => e.1 :: (e.2.1.toList ++ e.2.2)

/-- The number a list of digits denotes. -/
def digitsValue (ds : Bytes) : Nat := ds.foldl (fun n c => n * 10 + (c.toNat - 48)) 0

/-- The exponent of ten. -/
def exponent (d : Decimal) : Int :=
  d.exp.elim 0 fun e => if e.2.1 = some minus then -digitsValue e.2.2 else digitsValue e.2.2

/-- The absolute value of the number the token denotes. -/
def magnitude (d : Decimal) : ℚ :=
  (digitsValue d.int + (d.frac.elim 0 fun ds => digitsValue ds / 10 ^ ds.length : ℚ))
    * 10 ^ d.exponent

end Decimal

/-! ## Strings -/

/-- A hexadecimal digit and its value. -/
inductive HexDigit : UInt8 → Nat → Prop
  | digit {c : UInt8} : 0x30 ≤ c → c ≤ 0x39 → HexDigit c (c.toNat - 0x30)
  | lower {c : UInt8} : 0x61 ≤ c → c ≤ 0x66 → HexDigit c (c.toNat - 0x61 + 10)
  | upper {c : UInt8} : 0x41 ≤ c → c ≤ 0x46 → HexDigit c (c.toNat - 0x41 + 10)

/-- Four hexadecimal digits and their value. -/
inductive HexQuad : Bytes → Nat → Prop
  | mk {a b c d : UInt8} {i j k l : Nat} : HexDigit a i → HexDigit b j → HexDigit c k →
      HexDigit d l → HexQuad [a, b, c, d] (((i * 16 + j) * 16 + k) * 16 + l)

/-- The two-character escapes: what follows the backslash, and what it denotes. -/
inductive SimpleEscape : UInt8 → UInt8 → Prop
  | quote : SimpleEscape 0x22 0x22
  | backslash : SimpleEscape 0x5C 0x5C
  | slash : SimpleEscape 0x2F 0x2F
  | backspace : SimpleEscape 0x62 0x08
  | formFeed : SimpleEscape 0x66 0x0C
  | lineFeed : SimpleEscape 0x6E 0x0A
  | carriageReturn : SimpleEscape 0x72 0x0D
  | tab : SimpleEscape 0x74 0x09

/-- A code point in UTF-8. -/
def utf8 (cp : Nat) : Bytes := String.utf8EncodeChar (Char.ofNat cp)

/-- What follows a backslash, and the bytes it denotes: a two-character escape, a
code point that is no surrogate, or a pair of surrogates. -/
inductive Escape : Bytes → Bytes → Prop
  | simple {e b : UInt8} : SimpleEscape e b → Escape [e] [b]
  | scalar {h : Bytes} {cp : Nat} : HexQuad h cp → ¬ (0xD800 ≤ cp ∧ cp ≤ 0xDFFF) →
      Escape (letterU :: h) (utf8 cp)
  | pair {h l : Bytes} {hi lo : Nat} : HexQuad h hi → HexQuad l lo → 0xD800 ≤ hi → hi ≤ 0xDBFF →
      0xDC00 ≤ lo → lo ≤ 0xDFFF →
      Escape (letterU :: (h ++ backslash :: letterU :: l))
        (utf8 (0x10000 + (hi - 0xD800) * 0x400 + (lo - 0xDC00)))

/-- What stands between two quotes, and the bytes it denotes. -/
inductive StringBody : Bytes → Bytes → Prop
  | nil : StringBody [] []
  | raw {c : UInt8} {t b : Bytes} : 0x20 ≤ c → c ≠ quote → c ≠ backslash → StringBody t b →
      StringBody (c :: t) (c :: b)
  | escape {e d t b : Bytes} : Escape e d → StringBody t b →
      StringBody (backslash :: (e ++ t)) (d ++ b)

/-- A string token that denotes at most `maxString` bytes. -/
inductive StringToken (maxString : Nat) : Bytes → Bytes → Prop
  | mk {t b : Bytes} : StringBody t b → b.length ≤ maxString →
      StringToken maxString (quote :: (t ++ [quote])) b

/-! ## Values -/

/-- The double a decimal number denotes, given its sign and absolute value: the
nearest one, if the number is in the range of `double`. -/
class DecimalDouble (F : Type) extends JsonDouble F where
  ofDecimal : Bool → ℚ → Option F

mutual

/-- The text of one value, with no white space around it, and what it denotes. -/
inductive Denotes {N : Type} [DecimalDouble N] (maxString : Nat) : Bytes → Json Bytes N → Prop
  | nullValue : Denotes maxString litNull .null
  | trueValue : Denotes maxString litTrue (.bool true)
  | falseValue : Denotes maxString litFalse (.bool false)
  | number {d : Decimal} {n : N} : d.WellFormed →
      DecimalDouble.ofDecimal d.neg d.magnitude = some n → Denotes maxString d.text (.number n)
  | string {t b : Bytes} : StringToken maxString t b → Denotes maxString t (.string b)
  | emptyArray {w : Bytes} : Ws w →
      Denotes maxString (openBracket :: (w ++ [closeBracket])) (.array [])
  | array {t : Bytes} {vs : List (Json Bytes N)} : Elements maxString t vs →
      Denotes maxString (openBracket :: (t ++ [closeBracket])) (.array vs)
  | emptyObject {w : Bytes} : Ws w →
      Denotes maxString (openBrace :: (w ++ [closeBrace])) (.object [])
  | object {t : Bytes} {kvs : List (Bytes × Json Bytes N)} : Members maxString t kvs →
      Denotes maxString (openBrace :: (t ++ [closeBrace])) (Json.ofFields kvs)

/-- The elements of an array, separated by commas. -/
inductive Elements {N : Type} [DecimalDouble N] (maxString : Nat) :
    Bytes → List (Json Bytes N) → Prop
  | one {w t w' : Bytes} {v : Json Bytes N} : Ws w → Denotes maxString t v → Ws w' →
      Elements maxString (w ++ (t ++ w')) [v]
  | cons {w t w' ts : Bytes} {v : Json Bytes N} {vs : List (Json Bytes N)} : Ws w →
      Denotes maxString t v → Ws w' → Elements maxString ts vs →
      Elements maxString (w ++ (t ++ (w' ++ comma :: ts))) (v :: vs)

/-- The members of an object, separated by commas. -/
inductive Members {N : Type} [DecimalDouble N] (maxString : Nat) :
    Bytes → List (Bytes × Json Bytes N) → Prop
  | one {w k w₁ w₂ t w' key : Bytes} {v : Json Bytes N} : Ws w → StringToken maxString k key →
      Ws w₁ → Ws w₂ → Denotes maxString t v → Ws w' →
      Members maxString (w ++ (k ++ (w₁ ++ colon :: (w₂ ++ (t ++ w'))))) [(key, v)]
  | cons {w k w₁ w₂ t w' ts key : Bytes} {v : Json Bytes N} {kvs : List (Bytes × Json Bytes N)} :
      Ws w → StringToken maxString k key → Ws w₁ → Ws w₂ → Denotes maxString t v → Ws w' →
      Members maxString ts kvs →
      Members maxString (w ++ (k ++ (w₁ ++ colon :: (w₂ ++ (t ++ (w' ++ comma :: ts))))))
        ((key, v) :: kvs)

end

/-- A JSON text: white space, one value, white space. -/
inductive TextDenotes {N : Type} [DecimalDouble N] (maxString : Nat) :
    Bytes → Json Bytes N → Prop
  | mk {w t w' : Bytes} {v : Json Bytes N} : Ws w → Denotes maxString t v → Ws w' →
      TextDenotes maxString (w ++ (t ++ w')) v

/-! ## Container nesting -/

mutual

/-- The deepest nesting of brackets and braces in the rest of a text, `depth` of
them being open. -/
def nestingFrom (depth : Nat) : Bytes → Nat
  | [] => depth
  | c :: s =>
    if c = quote then nestingInString depth s
    else if c = openBracket ∨ c = openBrace then nestingFrom (depth + 1) s
    else if c = closeBracket ∨ c = closeBrace then max depth (nestingFrom (depth - 1) s)
    else nestingFrom depth s

/-- The deepest nesting in the rest of a text from inside a string, where brackets do not
count. -/
def nestingInString (depth : Nat) : Bytes → Nat
  | [] => depth
  | c :: s =>
    if c = quote then nestingFrom depth s
    else if c = backslash then nestingEscaped depth s
    else nestingInString depth s

/-- The deepest nesting in the rest of a text after a backslash in a string. -/
def nestingEscaped (depth : Nat) : Bytes → Nat
  | [] => depth
  | _ :: s => nestingInString depth s

end

/-- How deep a text nests containers. -/
def containerNesting (text : Bytes) : Nat := nestingFrom 0 text

end JsonText

end MemoryPressure
